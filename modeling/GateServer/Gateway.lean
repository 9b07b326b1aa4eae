import GateServer.Interact.Lending
import GateServer.Operations
import Mathlib.Logic.Function.Basic

/-!
# The gateway's shared state

The connection pools as queues, and the account table, which is abstract: only an executed
statement can change it. The critical sections of the pools are single steps. The answers
of Redis, MySQL and the gRPC services are unrestricted, and so are those of `RPConPool`,
whose slots are not a queue.
-/

namespace GateServer

open Interact

-- ---------------------------------------------------------------------------
-- The pools
-- ---------------------------------------------------------------------------

/-- A queue of idle connections or stubs, and the flag that `close` or `stop` sets. -/
structure ConnPool where
  conns : List Conn
  closed : Bool

namespace RedisPool

/-- `getConnection` waits while the pool is open and empty. -/
inductive Gets : ConnPool → Option Conn → ConnPool → Prop
  | stopped : Gets ⟨conns, true⟩ none ⟨conns, true⟩
  | front : Gets ⟨conn :: conns, false⟩ (some conn) ⟨conns, false⟩

/-- `returnConnection` tests `closed_` before it locks the mutex, so a pool that is closed in
between can still get the connection. -/
inductive TakesBack : ConnPool → Conn → ConnPool → Prop
  | dropped : TakesBack ⟨conns, true⟩ conn ⟨conns, true⟩
  | pushed : TakesBack ⟨conns, closed⟩ conn ⟨conns ++ [conn], closed⟩

inductive Closes : ConnPool → ConnPool → Prop
  | store : Closes ⟨conns, closed⟩ ⟨conns, true⟩
  | empty : Closes ⟨conns, true⟩ ⟨[], true⟩

end RedisPool

namespace MySqlPool

/-- `getConnection` waits while the pool is empty, whether it is closed or not. -/
inductive Gets : ConnPool → Option Conn → ConnPool → Prop
  | front : Gets ⟨conn :: conns, closed⟩ (some conn) ⟨conns, closed⟩

inductive TakesBack : ConnPool → Conn → ConnPool → Prop
  | pushed : TakesBack ⟨conns, closed⟩ conn ⟨conns ++ [conn], closed⟩

inductive Closes : ConnPool → ConnPool → Prop
  | empty : Closes ⟨conns, closed⟩ ⟨[], true⟩

end MySqlPool

namespace GRPCServerPool

inductive Gets : ConnPool → Option Conn → ConnPool → Prop
  | stopped : Gets ⟨conns, true⟩ none ⟨conns, true⟩
  | front : Gets ⟨conn :: conns, false⟩ (some conn) ⟨conns, false⟩

/-- `stop` does not lock, so it may come between the test of the flag and the push. -/
inductive TakesBack : ConnPool → Conn → ConnPool → Prop
  | dropped : TakesBack ⟨conns, true⟩ conn ⟨conns, true⟩
  | pushed : TakesBack ⟨conns, closed⟩ conn ⟨conns ++ [conn], closed⟩

inductive Stops : ConnPool → ConnPool → Prop
  | store : Stops ⟨conns, closed⟩ ⟨conns, true⟩

end GRPCServerPool

namespace Pool

def Gets : Pool → ConnPool → Option Conn → ConnPool → Prop
  | .redis => RedisPool.Gets
  | .mySql => MySqlPool.Gets
  | .status => GRPCServerPool.Gets
  | .varify => fun _ _ _ => True

def TakesBack : Pool → ConnPool → Conn → ConnPool → Prop
  | .redis => RedisPool.TakesBack
  | .mySql => MySqlPool.TakesBack
  | .status => GRPCServerPool.TakesBack
  | .varify => fun _ _ _ => True

def Closes : Pool → ConnPool → ConnPool → Prop
  | .redis => RedisPool.Closes
  | .mySql => MySqlPool.Closes
  | .status => GRPCServerPool.Stops
  | .varify => fun _ _ => False

variable {pool : Pool} {p p' : ConnPool}

theorem Gets.front (h : pool.Gets p (some conn) p') (hq : pool ≠ .varify) :
    p = ⟨conn :: p'.conns, p'.closed⟩ := by
  cases pool with
  | varify => exact absurd rfl hq
  | redis => cases h; rfl
  | mySql => cases h; rfl
  | status => cases h; rfl

theorem Gets.null (h : pool.Gets p none p') (hq : pool ≠ .varify) : p' = p := by
  cases pool with
  | varify => exact absurd rfl hq
  | redis => cases h; rfl
  | mySql => cases h
  | status => cases h; rfl

theorem TakesBack.back (h : pool.TakesBack p conn p') (hq : pool ≠ .varify)
    (ho : p'.closed = false) : p' = ⟨p.conns ++ [conn], p.closed⟩ := by
  cases pool with
  | varify => exact absurd rfl hq
  | redis =>
    cases h with
    | dropped => cases ho
    | pushed => rfl
  | mySql => cases h; rfl
  | status =>
    cases h with
    | dropped => cases ho
    | pushed => rfl

theorem Gets.stopped (h : pool.Gets p none p') (hq : pool ≠ .varify) : p.closed = true := by
  cases pool with
  | varify => exact absurd rfl hq
  | redis => cases h; rfl
  | mySql => cases h
  | status => cases h; rfl

theorem gets_front (pool : Pool) (conn : Conn) (conns : List Conn) :
    pool.Gets ⟨conn :: conns, false⟩ (some conn) ⟨conns, false⟩ := by
  cases pool with
  | redis => exact RedisPool.Gets.front
  | mySql => exact MySqlPool.Gets.front
  | status => exact GRPCServerPool.Gets.front
  | varify => trivial

theorem TakesBack.closed (h : pool.TakesBack p conn p') (hq : pool ≠ .varify) :
    p'.closed = p.closed := by
  cases pool with
  | varify => exact absurd rfl hq
  | redis => cases h <;> rfl
  | mySql => cases h; rfl
  | status => cases h <;> rfl

theorem TakesBack.gains (h : pool.TakesBack p conn p') (hq : pool ≠ .varify) :
    (p'.conns : Multiset Conn) ≤ conn ::ₘ p.conns := by
  have hdropped : (p.conns : Multiset Conn) ≤ conn ::ₘ p.conns := Multiset.le_cons_self ..
  have hpushed : ((p.conns ++ [conn] : List Conn) : Multiset Conn) ≤ conn ::ₘ p.conns := by
    rw [← Multiset.coe_add, add_comm, Multiset.coe_singleton, Multiset.singleton_add]
  cases pool with
  | varify => exact absurd rfl hq
  | redis =>
    cases h with
    | dropped => exact hdropped
    | pushed => exact hpushed
  | mySql =>
    cases h with
    | pushed => exact hpushed
  | status =>
    cases h with
    | dropped => exact hdropped
    | pushed => exact hpushed

theorem Closes.loses (h : pool.Closes p p') : (p'.conns : Multiset Conn) ≤ p.conns := by
  cases pool with
  | varify => exact h.elim
  | redis => cases h <;> first | exact le_rfl | exact Multiset.zero_le _
  | mySql =>
    cases h
    exact Multiset.zero_le _
  | status =>
    cases h
    exact le_rfl

theorem Closes.closed (h : pool.Closes p p') : p'.closed = true := by
  cases pool with
  | varify => exact h.elim
  | redis => cases h <;> rfl
  | mySql => cases h; rfl
  | status => cases h; rfl

end Pool

-- ---------------------------------------------------------------------------
-- The gateway
-- ---------------------------------------------------------------------------

structure Gateway (Accounts : Type) where
  pools : Pool → ConnPool
  accounts : Accounts

@[simp] def Op.pool? : Op → Option Pool
  | .acquire pool | .release pool _ => some pool
  | _ => none

def Op.Quiet : Op → Prop
  | .acquire _ | .release .. | .execute .. | .dao _ => False
  | _ => True

namespace Gateway

variable {Accounts : Type}

def setPool (g : Gateway Accounts) (pool : Pool) (p : ConnPool) : Gateway Accounts :=
  { g with pools := Function.update g.pools pool p }

@[simp] theorem setPool_pools_self (g : Gateway Accounts) (pool : Pool) (p : ConnPool) :
    (g.setPool pool p).pools pool = p := Function.update_self ..

theorem setPool_pools_ne (g : Gateway Accounts) {pool other : Pool} (p : ConnPool)
    (h : other ≠ pool) : (g.setPool pool p).pools other = g.pools other :=
  Function.update_of_ne h ..

@[simp] theorem setPool_accounts (g : Gateway Accounts) (pool : Pool) (p : ConnPool) :
    (g.setPool pool p).accounts = g.accounts := rfl

/-- `dao` is a call of the data-access layer as one step. Its effect on the MySQL pool is given
by the layer's own operations. -/
inductive Acts : Gateway Accounts → Ev → Gateway Accounts → Prop
  | get : pool.Gets (g.pools pool) conn p → Acts g ⟨.acquire pool, conn⟩ (g.setPool pool p)
  | takeBack : pool.TakesBack (g.pools pool) conn p →
      Acts g ⟨.release pool conn, ()⟩ (g.setPool pool p)
  | execute (table : Accounts) : Acts g ⟨.execute conn query, done⟩ ⟨g.pools, table⟩
  | dao (table : Accounts) : Acts g ⟨.dao call, result⟩ ⟨g.pools, table⟩
  | quiet : Op.Quiet ev.op → Acts g ev g

inductive Closes : Gateway Accounts → Gateway Accounts → Prop
  | close : pool.Closes (g.pools pool) p → Closes g (g.setPool pool p)

def arena (Accounts : Type) : Arena Ans (Gateway Accounts) where
  act := Acts
  env := Closes

def opened (conns : List Conn) : Gateway Nat := ⟨fun _ => ⟨conns, false⟩, 0⟩

-- ---------------------------------------------------------------------------
-- The pools lend
-- ---------------------------------------------------------------------------

def moves (pool : Pool) : Ev → Move Conn
  | ⟨.acquire p, some conn⟩ => if p = pool then .take conn else .stay
  | ⟨.release p conn, _⟩ => if p = pool then .give conn else .stay
  | _ => .stay

@[simp] theorem moves_acquire (pool : Pool) (conn : Conn) :
    moves pool ⟨.acquire pool, some conn⟩ = .take conn := if_pos rfl

@[simp] theorem moves_release (pool : Pool) (conn : Conn) :
    moves pool ⟨.release pool conn, ()⟩ = .give conn := if_pos rfl

theorem moves_of_pool_ne (h : Op.pool? ev.op ≠ some pool) : moves pool ev = .stay := by
  obtain ⟨op, a⟩ := ev
  cases op with
  | acquire p =>
    cases a with
    | none => rfl
    | some conn => exact if_neg fun hp => h (congrArg some hp)
  | release p conn => exact if_neg fun hp => h (congrArg some hp)
  | _ => rfl

theorem idles_of_pool_ne (h : ∀ ev ∈ tr, Op.pool? ev.op ≠ some pool) : Idles (moves pool) tr := by
  intro ev hev
  refine ⟨moves_of_pool_ne (h ev hev), fun a c hm => ?_⟩
  have hstay : moves pool ⟨ev.op, a⟩ = .stay := moves_of_pool_ne (h ev hev)
  cases hstay.symm.trans hm

theorem acquire_ne_give (pool p : Pool) (a : Option Conn) (c : Conn) :
    moves pool ⟨.acquire p, a⟩ ≠ .give c := by
  cases a with
  | none => exact fun h => nomatch h
  | some conn =>
    simp only [moves]
    split <;> exact fun h => nomatch h

theorem settles_null (h : ∀ ev ∈ tr, Op.pool? ev.op ≠ some pool) :
    Settles (moves pool) (⟨.acquire pool, none⟩ :: tr) := by
  refine Idles.settles fun ev hev => ?_
  rcases List.mem_cons.mp hev with rfl | hev
  · exact ⟨rfl, acquire_ne_give _ _⟩
  · exact idles_of_pool_ne h ev hev

theorem settles_once {m t : Trace} (h : ∀ ev ∈ m, Op.pool? ev.op ≠ some pool)
    (h' : ∀ ev ∈ t, Op.pool? ev.op ≠ some pool) : Settles (moves pool)
      (⟨.acquire pool, some conn⟩ :: (m ++ ⟨.release pool conn, ()⟩ :: t)) := by
  exact Interact.settles_once (moves_acquire ..) (acquire_ne_give _ _) (fun _ => moves_release ..)
    (idles_of_pool_ne h) (idles_of_pool_ne h')

theorem leaks {m : Trace} (h : ∀ ev ∈ m, Op.pool? ev.op ≠ some pool) :
    ¬ Settles (moves pool) (⟨.acquire pool, some conn⟩ :: m) := by
  rintro ⟨-, hback⟩
  have hi := idles_of_pool_ne h
  simp [GaveBack, taken, givenBack, moves, hi.taken, hi.givenBack] at hback

def Opened (pool : Pool) (g : Gateway Accounts) : Prop := (g.pools pool).closed = false

def idle (pool : Pool) (g : Gateway Accounts) : Multiset Conn := (g.pools pool).conns

variable {pool : Pool} {g g' : Gateway Accounts}

theorem Acts.cases_pool (ha : Acts g ev g') (hq : pool ≠ .varify) :
    (g'.pools pool = g.pools pool ∧ moves pool ev = .stay) ∨
    (∃ conn, moves pool ev = .take conn ∧
      g.pools pool = ⟨conn :: (g'.pools pool).conns, (g'.pools pool).closed⟩) ∨
    ∃ conn, moves pool ev = .give conn ∧ pool.TakesBack (g.pools pool) conn (g'.pools pool) := by
  cases ha with
  | @get other conn p hg =>
    by_cases h : other = pool
    · subst h
      cases conn with
      | none => exact .inl ⟨by simpa using hg.null hq, rfl⟩
      | some conn => exact .inr (.inl ⟨conn, by simp [moves], by simpa using hg.front hq⟩)
    · exact .inl ⟨setPool_pools_ne _ _ (Ne.symm h), by cases conn <;> simp [moves, h]⟩
  | @takeBack other conn p ht =>
    by_cases h : other = pool
    · subst h
      exact .inr (.inr ⟨conn, by simp [moves], by simpa using ht⟩)
    · exact .inl ⟨setPool_pools_ne _ _ (Ne.symm h), by simp [moves, h]⟩
  | execute => exact .inl ⟨rfl, rfl⟩
  | dao => exact .inl ⟨rfl, rfl⟩
  | quiet hev =>
    obtain ⟨op, a⟩ := ev
    refine .inl ⟨rfl, ?_⟩
    cases op <;> first | rfl | exact hev.elim

theorem Acts.closed (ha : Acts g ev g') (hq : pool ≠ .varify) :
    (g'.pools pool).closed = (g.pools pool).closed := by
  rcases ha.cases_pool hq with ⟨heq, -⟩ | ⟨conn, -, heq⟩ | ⟨conn, -, ht⟩
  · rw [heq]
  · rw [heq]
  · exact ht.closed hq

theorem Acts.acquired (ha : Acts g ⟨.acquire pool, conn⟩ g') (hq : pool ≠ .varify)
    (ho : Opened pool g) : ∃ c, conn = some c := by
  cases ha with
  | @get _ conn p hg =>
    cases conn with
    | some c => exact ⟨c, rfl⟩
    | none => cases ho.symm.trans (hg.stopped hq)
  | quiet h => exact h.elim

theorem Acts.accounts (ha : Acts g ev g') : g'.accounts = g.accounts ∨
    (∃ conn query, ev.op = .execute conn query) ∨ ∃ call, ev.op = .dao call := by
  cases ha with
  | execute => exact .inr (.inl ⟨_, _, rfl⟩)
  | dao => exact .inr (.inr ⟨_, rfl⟩)
  | _ => exact .inl rfl

theorem Closes.opened (hc : Closes g g') (ho : Opened pool g') : g'.pools pool = g.pools pool := by
  cases hc with
  | @close other p hc =>
    by_cases h : other = pool
    · subst h
      rw [Opened, setPool_pools_self, hc.closed] at ho
      cases ho
    · exact setPool_pools_ne _ _ (Ne.symm h)

theorem Closes.accounts (hc : Closes g g') : g'.accounts = g.accounts := by
  cases hc
  rfl

theorem lends (hq : pool ≠ .varify) :
    Lender (arena Accounts) (moves pool) (idle pool) (Opened pool) where
  take ha _ hm := by
    rcases Acts.cases_pool ha hq with ⟨-, h⟩ | ⟨conn, h, heq⟩ | ⟨conn, h, -⟩
    · cases hm.symm.trans h
    · cases hm.symm.trans h
      simp [idle, heq]
    · cases hm.symm.trans h
  give ha ho hm := by
    rcases Acts.cases_pool ha hq with ⟨-, h⟩ | ⟨conn, h, -⟩ | ⟨conn, h, ht⟩
    · cases hm.symm.trans h
    · cases hm.symm.trans h
    · cases hm.symm.trans h
      rw [idle, idle, ht.back hq ho, ← Multiset.coe_add, add_comm, Multiset.coe_singleton,
        Multiset.singleton_add]
  stay ha _ hm := by
    rcases Acts.cases_pool ha hq with ⟨heq, -⟩ | ⟨conn, h, -⟩ | ⟨conn, h, -⟩
    · rw [idle, heq, idle]
    · cases hm.symm.trans h
    · cases hm.symm.trans h
  env hc ho := by rw [idle, Closes.opened hc ho, idle]
  opened_act ha ho := by
    rcases Acts.cases_pool ha hq with ⟨heq, -⟩ | ⟨conn, -, heq⟩ | ⟨conn, -, ht⟩
    · rwa [Opened, ← heq]
    · rwa [Opened, heq]
    · rw [Opened, ht.back hq ho] at ho
      exact ho
  opened_env hc ho := by
    rw [Opened, ← Closes.opened hc ho]
    exact ho

/-- A queue gains only what is given back, closed or not. -/
theorem keeps (hq : pool ≠ .varify) : Keeper (arena Accounts) (moves pool) (idle pool) where
  take ha hm := by
    rcases Acts.cases_pool ha hq with ⟨-, h⟩ | ⟨conn, h, heq⟩ | ⟨conn, h, -⟩
    · cases hm.symm.trans h
    · cases hm.symm.trans h
      simp [idle, heq]
    · cases hm.symm.trans h
  give ha hm := by
    rcases Acts.cases_pool ha hq with ⟨-, h⟩ | ⟨conn, h, -⟩ | ⟨conn, h, ht⟩
    · cases hm.symm.trans h
    · cases hm.symm.trans h
    · cases hm.symm.trans h
      exact ht.gains hq
  stay ha hm := by
    rcases Acts.cases_pool ha hq with ⟨heq, -⟩ | ⟨conn, h, -⟩ | ⟨conn, h, -⟩
    · rw [idle, heq, idle]
    · cases hm.symm.trans h
    · cases hm.symm.trans h
  env hc := by
    cases hc with
    | @close other p hc =>
      by_cases h : other = pool
      · subst h
        simpa [idle] using hc.loses
      · rw [idle, setPool_pools_ne _ _ (Ne.symm h), idle]

end Gateway
end GateServer
