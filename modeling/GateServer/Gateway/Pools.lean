import GateServer.Gateway
import GateServer.GRPCServerPool
import GateServer.Interact.Refinement
import GateServer.MySqlPool
import GateServer.RedisPool

/-!
# The pools refine the gateway's queues

The gateway takes a connection in one step where the code locks, waits, tests and pops.
The statements of each pool refine the operations of the gateway on its queue.
-/

namespace GateServer

open Interact

namespace Pool

inductive Acts (pool : Pool) : ConnPool → Ev → ConnPool → Prop
  | get : pool.Gets p conn p' → Acts pool p ⟨.acquire pool, conn⟩ p'
  | takeBack : pool.TakesBack p conn p' → Acts pool p ⟨.release pool conn, ()⟩ p'

def arena (pool : Pool) : Arena Ans ConnPool where
  act := pool.Acts
  env := pool.Closes

end Pool

namespace Gateway

variable {Accounts : Type}

theorem setPool_setPool (g : Gateway Accounts) (pool : Pool) (p p' : ConnPool) :
    (g.setPool pool p).setPool pool p' = g.setPool pool p' := by
  simp [setPool]

theorem makes_setPool (g : Gateway Accounts) (h : pool.arena.Makes e p p') :
    (arena Accounts).Makes e (g.setPool pool p) (g.setPool pool p') := by
  rw [← setPool_setPool g pool p p']
  cases e with
  | none =>
    cases h
    exact setPool_setPool ..
  | act ev =>
    cases h with
    | get h => exact .get (by rwa [setPool_pools_self])
    | takeBack h => exact .takeBack (by rwa [setPool_pools_self])
  | env => exact .close (by rwa [setPool_pools_self])

end Gateway

-- ---------------------------------------------------------------------------
-- RedisPool
-- ---------------------------------------------------------------------------

namespace RedisPool

@[simp] def Place.draining : Place → Bool
  | .closeDrain => true
  | _ => false

/-- The abstract queue is empty as soon as a `close` holds the mutex. -/
def shown (draining : Bool) (s : Shared) : ConnPool :=
  ⟨if draining then [] else s.conns, s.closed⟩

def view (c : Monitor Shared Thread) : ConnPool := shown (0 < count Place.draining c) c.shared

/-- A `getConnection` takes effect when its predicate is true, a `returnConnection` when it
drops the connection or pushes it. -/
def effect : Place → Place → Effect Ans
  | .getCheck _, .getUnlock conn => .act ⟨.acquire .redis, conn⟩
  | .retTest (some conn), .out | .retPush conn, .retNotify _ => .act ⟨.release .redis conn, ()⟩
  | .closeStore, .closeLock | .closeLock, .closeDrain => .env
  | _, _ => .none

theorem view_eq (h : count Place.draining c = d.toNat) : view c = shown d c.shared := by
  rw [view, h]
  cases d <;> rfl

theorem Next.effect_inside (hn : Next s p sig s' p') (hin : p.inside = true) :
    Pool.redis.arena.Makes (effect p p') (shown p.draining s) (shown p'.draining s') := by
  obtain ⟨conns, closed, locked, done⟩ := s
  cases hn with
  | getClosed hclosed =>
    cases hclosed
    exact .get RedisPool.Gets.stopped
  | getFront hopen hconns =>
    cases hopen
    cases hconns
    exact .get RedisPool.Gets.front
  | retPush => exact .takeBack RedisPool.TakesBack.pushed
  | closeEmpty hconns =>
    cases hconns
    rfl
  | retClosed | closeStore | closeLock => cases hin
  | _ => rfl

/-- Outside the mutex a step has the same effect whether or not the queue is being emptied. -/
theorem Next.effect_outside (hn : Next s p sig s' p') (hout : p.inside = false)
    (hp : p ≠ .closeLock) (d : Bool) :
    p'.draining = p.draining ∧
      Pool.redis.arena.Makes (effect p p') (shown d s) (shown d s') := by
  obtain ⟨conns, closed, locked, done⟩ := s
  cases hn with
  | retClosed hclosed =>
    cases hclosed
    exact ⟨rfl, .takeBack RedisPool.TakesBack.dropped⟩
  | closeStore => exact ⟨rfl, RedisPool.Closes.store⟩
  | closeLock => exact absurd rfl hp
  | getClosed | getFront | retPush | closePop | closeEmpty => cases hout
  | _ => exact ⟨rfl, rfl⟩

theorem Next.effect_closeLock (hn : Next s .closeLock sig s' p') (hclosed : s.closed = true) :
    p'.draining = true ∧
      Pool.redis.arena.Makes (effect .closeLock p') (shown false s) (shown true s') := by
  obtain ⟨conns, closed, locked, done⟩ := s
  cases hclosed
  cases hn
  exact ⟨rfl, RedisPool.Closes.empty⟩

theorem draining_inside (t : Thread) (h : t.place.draining = true) : t.place.inside = true := by
  obtain ⟨place, late⟩ := t
  cases place <;> simp_all

theorem refines : machine.Refines Pool.redis.arena Ok (fun _ t t' => effect t.place t'.place) view
    (start conns n) where
  step {c t t' c'} hr hs := by
    have hx := lock.excludes start_excludes hr
    have hcount := count_step hs Place.draining rfl
    obtain ⟨ts, us, sig, hts, hact, -⟩ := hs.inv
    have hn := hact.next
    cases hin : t.place.inside with
    | true =>
      have hbefore : count Place.draining c = t.place.draining.toNat :=
        hx.countP (k := ()) hts hin draining_inside
      rw [view_eq hbefore, view_eq (d := t'.place.draining) (by omega)]
      exact hn.effect_inside hin
    | false =>
      by_cases hplace : t.place = .closeLock
      · have hknows := (knows hr t hs.mover).place
        rw [hplace] at hn hknows hcount
        have hnone : count Place.draining c = 0 := List.countP_eq_zero.mpr fun u hu h =>
          nomatch hn.free.symm.trans (hx.flag (k := ()) hu (draining_inside u h))
        obtain ⟨hdrains, hmakes⟩ := hn.effect_closeLock hknows
        rw [hdrains, hnone] at hcount
        rw [view_eq (d := false) hnone, view_eq (d := true) hcount, hplace]
        exact hmakes
      · obtain ⟨hsame, hmakes⟩ := hn.effect_outside hin hplace (0 < count Place.draining c)
        rw [hsame] at hcount
        rw [view, view, Nat.add_right_cancel hcount]
        exact hmakes

end RedisPool

-- ---------------------------------------------------------------------------
-- MySqlPool
-- ---------------------------------------------------------------------------

namespace MySqlPool

@[simp] def Place.emptying : Place → Bool
  | .closeNotify | .closeDrain => true
  | _ => false

def shown (emptying : Bool) (s : Shared) : ConnPool :=
  ⟨if emptying then [] else s.conns, s.closed⟩

def view (c : Monitor Shared Place) : ConnPool := shown (0 < count Place.emptying c) c.shared

def effect : Place → Place → Effect Ans
  | .getCheck, .getUnlock conn => .act ⟨.acquire .mySql, some conn⟩
  | .relPush conn, .relNotify _ => .act ⟨.release .mySql conn, ()⟩
  | .closeStore, .closeNotify => .env
  | _, _ => .none

theorem view_eq (h : count Place.emptying c = d.toNat) : view c = shown d c.shared := by
  rw [view, h]
  cases d <;> rfl

theorem Next.effect_inside (hn : Next s p sig s' p') (hin : p.inside = true) :
    Pool.mySql.arena.Makes (effect p p') (shown p.emptying s) (shown p'.emptying s') := by
  obtain ⟨conns, closed, locked, done⟩ := s
  cases hn with
  | getFront hconns =>
    cases hconns
    exact .get MySqlPool.Gets.front
  | relPush => exact .takeBack MySqlPool.TakesBack.pushed
  | closeStore => exact MySqlPool.Closes.empty
  | closeEmpty hconns =>
    cases hconns
    rfl
  | _ => rfl

theorem Next.effect_outside (hn : Next s p sig s' p') (hout : p.inside = false) (d : Bool) :
    p'.emptying = p.emptying ∧
      Pool.mySql.arena.Makes (effect p p') (shown d s) (shown d s') := by
  obtain ⟨conns, closed, locked, done⟩ := s
  cases hn with
  | getFront | relPush | closeStore | closePop | closeEmpty => cases hout
  | _ => exact ⟨rfl, rfl⟩

theorem emptying_inside (p : Place) (h : p.emptying = true) : p.inside = true := by
  cases p <;> simp_all

theorem count_step (hs : machine.Step c p p' c') (q : Place → Bool) (hq : q .getWake = q .getWait) :
    count q c' + (q p).toNat = count q c + (q p').toNat :=
  hs.countP fun u hu => by rwa [parked_isSome.mp hu]

theorem refines :
    machine.Refines Pool.mySql.arena Ok (fun _ => effect) view (start conns n) where
  step {c p p' c'} hr hs := by
    have hx := lock.excludes start_oneInside hr
    have hcount := count_step hs Place.emptying rfl
    obtain ⟨ts, us, sig, hts, hn, -⟩ := hs.inv
    cases hin : p.inside with
    | true =>
      have hbefore : count Place.emptying c = p.emptying.toNat :=
        hx.countP (k := ()) hts hin emptying_inside
      rw [view_eq hbefore, view_eq (d := p'.emptying) (by omega)]
      exact hn.effect_inside hin
    | false =>
      obtain ⟨hsame, hmakes⟩ := hn.effect_outside hin (0 < count Place.emptying c)
      rw [hsame] at hcount
      rw [view, view, Nat.add_right_cancel hcount]
      exact hmakes

end MySqlPool

-- ---------------------------------------------------------------------------
-- gRPCServerPool
-- ---------------------------------------------------------------------------

namespace GRPCServerPool

@[simp] def Place.taking : Place → Bool
  | .getFront .stub => true
  | _ => false

/-- The abstract queue of stubs, without the one that a `get_stub` is about to pop. -/
def shown (taking : Bool) (s : Shared) : ConnPool :=
  ⟨if taking then (s.pool .stub).tail else s.pool .stub, s.isStop⟩

def view (c : Monitor Shared Thread) : ConnPool := shown (0 < count Place.taking c) c.shared

def effect (s : Shared) : Place → Place → Effect Ans
  | .getTest .stub, .getUnlock .stub none => .act ⟨.acquire .status, none⟩
  | .getRetest .stub, .getUnlock .stub none => .act ⟨.acquire .status, none⟩
  | .getRetest .stub, .getFront .stub => .act ⟨.acquire .status, (s.pool .stub).head?⟩
  | .relTest .stub conn, .relUnlock .stub _ => .act ⟨.release .status conn, ()⟩
  | .relPush .stub conn, .relNotify .stub _ => .act ⟨.release .status conn, ()⟩
  | .stopStore, .stopNotify .channel => .env
  | _, _ => .none

theorem view_eq (h : count Place.taking c = d.toNat) : view c = shown d c.shared := by
  rw [view, h]
  cases d <;> rfl

theorem shown_push (s : Shared) (conn : Conn) :
    shown false (s.push .stub conn) = ⟨s.pool .stub ++ [conn], s.isStop⟩ := by
  simp [shown, Shared.push]

theorem shown_pop (s : Shared) (conn : Conn) (rest : List Conn) :
    shown false (s.pop .stub conn rest) = ⟨rest, s.isStop⟩ := by
  simp [shown, Shared.pop]

theorem Next.effect_inside (hn : Next s p mv sig s' p') (hp : p.Knows s)
    (hin : p.inside .stub = true) :
    Pool.status.arena.Makes (effect s p p') (shown p.taking s) (shown p'.taking s') := by
  obtain ⟨pool, locked, isStop, entered, left, done⟩ := s
  cases hn with
  | @getStopped _ k hstop | @getGivesUp _ k hstop =>
    obtain rfl : k = .stub := eq_of_beq hin
    cases hstop
    exact .get GRPCServerPool.Gets.stopped
  | @getGoes _ k hrun =>
    obtain rfl : k = .stub := eq_of_beq hin
    cases hrun
    have hready : pool .stub ≠ [] := hp.resolve_right nofun
    obtain ⟨conn, rest, hpool⟩ := List.exists_cons_of_ne_nil hready
    have hgets : Pool.status.Gets ⟨pool .stub, false⟩ (pool .stub).head?
        ⟨(pool .stub).tail, false⟩ := by
      rw [hpool]
      exact GRPCServerPool.Gets.front
    exact .get hgets
  | @getFront conn rest _ k hpool =>
    obtain rfl : k = .stub := eq_of_beq hin
    show shown false _ = shown true _
    rw [shown_pop]
    exact congrArg (ConnPool.mk · isStop) (congrArg List.tail hpool).symm
  | @relStopped _ k conn hstop =>
    obtain rfl : k = .stub := eq_of_beq hin
    cases hstop
    exact .takeBack GRPCServerPool.TakesBack.dropped
  | @relPush _ k conn =>
    obtain rfl : k = .stub := eq_of_beq hin
    refine .takeBack ?_
    show Pool.status.TakesBack _ conn (shown false _)
    rw [shown_push]
    exact GRPCServerPool.TakesBack.pushed
  | stopStore => cases hin
  | _ => first | rfl | (cases ‹Kind› <;> rfl)

theorem Next.effect_outside (hn : Next s p mv sig s' p') (hout : p.inside .stub = false)
    (d : Bool) : p'.taking = p.taking ∧
      Pool.status.arena.Makes (effect s p p') (shown d s) (shown d s') := by
  have hpool := hn.pool_outside hout
  cases hn with
  | stopStore => exact ⟨rfl, GRPCServerPool.Stops.store⟩
  | @getFront _ _ _ k =>
    cases k with
    | stub => cases hout
    | channel => exact ⟨rfl, by simp [shown, effect, Arena.Makes, hpool]⟩
  | @relPush _ k conn =>
    cases k with
    | stub => cases hout
    | channel => exact ⟨rfl, by simp [shown, effect, Arena.Makes, hpool]⟩
  | _ => first | exact ⟨rfl, rfl⟩ | (cases ‹Kind› <;> first | exact ⟨rfl, rfl⟩ | cases hout)

theorem taking_inside (t : Thread) (h : t.place.taking = true) : t.place.inside .stub = true := by
  obtain ⟨place, late, owned⟩ := t
  cases place with
  | getFront k => cases k <;> simp_all
  | _ => cases h

theorem taking_of_woken {t : Thread} (h : (machine.parked t).isSome) :
    (machine.woken t).place.taking = t.place.taking := by
  obtain ⟨k, hk⟩ := parked_isSome h
  rw [woken_of_wait hk, hk]
  rfl

theorem refines : machine.Refines Pool.status.arena Ok (fun s t t' => effect s t.place t'.place)
    view (start conns n) where
  step {c t t' c'} hr hs := by
    have hx := lock.excludes start_excludes hr
    have hcount : count Place.taking c' + _ = count Place.taking c + _ :=
      hs.countP fun _ => taking_of_woken
    have hknows := (knows hr t hs.mover).place
    obtain ⟨ts, us, sig, hts, hact, -⟩ := hs.inv
    obtain ⟨mv, hn⟩ := hact.next
    cases hin : t.place.inside .stub with
    | true =>
      have hbefore : count Place.taking c = t.place.taking.toNat :=
        hx.countP hts hin taking_inside
      rw [view_eq hbefore, view_eq (d := t'.place.taking) (by omega)]
      exact hn.effect_inside hknows hin
    | false =>
      obtain ⟨hsame, hmakes⟩ := hn.effect_outside hin (0 < count Place.taking c)
      rw [hsame] at hcount
      rw [view, view, Nat.add_right_cancel hcount]
      exact hmakes

end GRPCServerPool
end GateServer
