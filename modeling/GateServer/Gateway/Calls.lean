import GateServer.Gateway.Pools
import GateServer.Interact.Recording

/-!
# Calls of the pools as single steps

A call of a pool takes many steps, between which other threads take theirs. It has one
effect, between its beginning and its end, and the effects in their order are a run of the
gateway.
-/

namespace GateServer

open Interact

/-- The effects `tr` of the threads' statements are a run of the gateway in which each call is
one step. `Records` gives the effects of a thread's current call at its place. -/
structure Pool.InOneStep (pool : Pool) (g : Gateway Accounts) (p p' : ConnPool) (tr : List Ev)
    (Records : L → List Ev → Prop) (ts : List (Recorded Ans L)) : Prop where
  run : (Gateway.arena Accounts).Run (g.setPool pool p) tr (g.setPool pool p')
  calls : ∀ t ∈ ts, Records t.thread t.since

namespace Gateway

variable {Accounts S L Cv : Type} [DecidableEq Cv] {M : Machine S L Cv} {pool : Pool}
  {Ok : Monitor S L → L → L → Prop} {effect : S → L → L → Effect Ans} {idle : L → Bool}
  {view : Monitor S L → ConnPool} {c₀ : Monitor S L} {c : Monitor S (Recorded Ans L)}

theorem traced_setPool (h : M.Refines pool.arena Machine.Any effect view c₀)
    (g : Gateway Accounts) (ht : M.Remembers effect idle c₀ tr c) :
    (arena Accounts).Run (g.setPool pool (view c₀)) tr
      (g.setPool pool (view (Machine.forget c))) := by
  have hg : M.Refines (arena Accounts) Machine.Any effect (fun c => g.setPool pool (view c)) c₀ :=
    { step := fun hr hs => makes_setPool g (h.step hr hs) }
  exact hg.traced ht.forget

end Gateway

-- ---------------------------------------------------------------------------
-- RedisPool
-- ---------------------------------------------------------------------------

namespace RedisPool

@[simp] def Place.idle : Place → Bool
  | .out => true
  | _ => false

@[simp] def Place.Records : Place → List Ev → Prop
  | .out, _ => True
  | .getUnlock res, since | .got res, since => since = [⟨.acquire .redis, res⟩]
  | .retNotify conn, since | .retUnlock conn, since => since = [⟨.release .redis conn, ()⟩]
  | _, since => since = []

theorem records : machine.Records (fun _ t t' => effect t.place t'.place) (·.place.idle)
    (fun t (_ : Unit) => t.place.inside) Knows fun _ t since => t.place.Records since where
  own := by
    rintro s t sig s' t' since ⟨hn⟩ - h
    cases hn <;> simp_all [effect, Effect.events]
  others _ h _ := h
  woken := by
    intro t s since hpark h
    have hwaits := parked_isSome.mp hpark
    simpa [machine, hwaits] using h

theorem redis_in_one_step (g : Gateway Accounts)
    (ht : machine.Remembers (fun _ t t' => effect t.place t'.place) (·.place.idle)
      (start conns n) tr c) :
    Pool.redis.InOneStep g ⟨conns, false⟩ (view (Machine.forget c)) tr
      (fun t => t.place.Records) c.threads where
  run := by
    have hrun := Gateway.traced_setPool refines g ht
    rwa [view_eq (d := false) (count_start _ rfl)] at hrun
  calls := by
    refine records.holds outline lock start_excludes (fun t hmem => ?_) (fun t hmem => ?_) ht
    · have hstart : machine.Reachable Machine.Any (start conns n) _ := .start
      exact knows hstart t hmem
    · obtain ⟨-, rfl⟩ := List.mem_replicate.mp hmem
      trivial

theorem redis_in_one_step_taken : Pool.redis.InOneStep (Gateway.opened []) ⟨[0], false⟩
    ⟨[], false⟩ [⟨.acquire .redis, some 0⟩] (fun t : Thread => t.place.Records)
    [⟨⟨.got (some 0), false⟩, [⟨.acquire .redis, some 0⟩]⟩, ⟨⟨.out, false⟩, []⟩] := by
  have hstart : machine.Remembers (fun _ t t' => effect t.place t'.place) (·.place.idle)
    (start [0] 2) [] _ := .start
  have hasked := (hstart.moves [] [_] (.mk .getCall)).moves [] [_] (.mk (.getLock rfl))
  have hfound := hasked.moves [] [_] (.mk (.getFront rfl rfl))
  exact redis_in_one_step _ (hfound.moves [] [_] (.mk .getUnlock))

end RedisPool

-- ---------------------------------------------------------------------------
-- MySqlPool
-- ---------------------------------------------------------------------------

namespace MySqlPool

@[simp] def Place.idle : Place → Bool
  | .out => true
  | _ => false

@[simp] def Place.Records : Place → List Ev → Prop
  | .out, _ => True
  | .getUnlock conn, since | .got conn, since => since = [⟨.acquire .mySql, some conn⟩]
  | .relNotify conn, since | .relUnlock conn, since => since = [⟨.release .mySql conn, ()⟩]
  | _, since => since = []

theorem records : machine.Records (fun _ => effect) Place.idle (fun p (_ : Unit) => p.inside)
    (fun s p => p.Knows s) fun _ => Place.Records where
  own := by
    rintro s p sig s' p' since hn - h
    cases hn <;> simp_all [effect, Effect.events]
  others _ h _ := h
  woken := by
    intro p s since hpark h
    cases parked_isSome.mp hpark
    exact h

theorem mySql_in_one_step (g : Gateway Accounts)
    (ht : machine.Remembers (fun _ => effect) Place.idle (start conns n) tr c) :
    Pool.mySql.InOneStep g ⟨conns, false⟩ (view (Machine.forget c)) tr Place.Records
      c.threads where
  run := by
    have hrun := Gateway.traced_setPool refines g ht
    rwa [view_eq (d := false) (by simp [count, start])] at hrun
  calls := by
    refine records.holds outline lock start_oneInside (fun p hmem => ?_) (fun p hmem => ?_) ht
    · have hstart : machine.Reachable Machine.Any (start conns n) _ := .start
      exact knows hstart p hmem
    · obtain ⟨-, rfl⟩ := List.mem_replicate.mp hmem
      trivial

theorem mySql_in_one_step_taken : Pool.mySql.InOneStep (Gateway.opened []) ⟨[0], false⟩
    ⟨[], false⟩ [⟨.acquire .mySql, some 0⟩] Place.Records
    [⟨.got 0, [⟨.acquire .mySql, some 0⟩]⟩, ⟨.out, []⟩] := by
  have hstart : machine.Remembers (fun _ => effect) Place.idle (start [0] 2) [] _ := .start
  have hasked := (hstart.moves [] [_] .getCall).moves [] [_] (.getLock rfl)
  exact mySql_in_one_step _ ((hasked.moves [] [_] (.getFront rfl)).moves [] [_] .getUnlock)

end MySqlPool

-- ---------------------------------------------------------------------------
-- gRPCServerPool
-- ---------------------------------------------------------------------------

namespace GRPCServerPool

@[simp] def Place.idle : Place → Bool
  | .out => true
  | _ => false

@[simp] def Place.Records (s : Shared) : Place → List Ev → Prop
  | .out, _ => True
  | .getFront .stub, since => since = [⟨.acquire .status, (s.pool .stub).head?⟩]
  | .getUnlock .stub res, since | .got .stub res, since => since = [⟨.acquire .status, res⟩]
  | .relNotify .stub conn, since | .relUnlock .stub conn, since =>
    since = [⟨.release .status conn, ()⟩]
  | _, since => since = []

theorem records : machine.Records (fun s t t' => effect s t.place t'.place) (·.place.idle)
    (fun t k => t.place.inside k) Knows fun s t since => t.place.Records s since where
  own := by
    rintro s t sig s' t' since ⟨hn⟩ - h
    cases hn with
    | getCall | relCall => cases ‹Kind› <;> rfl
    | stopCall | stopStore | stopChannels | stopStubs | getReturn | relUnlock =>
      simp_all [effect, Effect.events]
    | _ => cases ‹Kind› <;> simp_all [effect, Effect.events]
  others := by
    rintro s l sig s' l' u since hdoes h hapart
    obtain ⟨mv, hn⟩ := hdoes.next
    obtain ⟨place, late, owned⟩ := u
    cases place with
    | getFront k =>
      cases k with
      | stub =>
        have hpool := hn.pool_outside (hapart .stub rfl).1
        simpa [hpool] using h
      | channel => exact h
    | getUnlock k | got k | relNotify k | relUnlock k => cases k <;> exact h
    | _ => exact h
  woken := by
    intro t s since hpark h
    obtain ⟨k, hk⟩ := parked_isSome hpark
    rw [woken_of_wait hk]
    simpa [hk] using h

theorem status_in_one_step (g : Gateway Accounts)
    (ht : machine.Remembers (fun s t t' => effect s t.place t'.place) (·.place.idle)
      (start conns n) tr c) :
    Pool.status.InOneStep g ⟨conns .stub, false⟩ (view (Machine.forget c)) tr
      (fun t => t.place.Records c.shared) c.threads where
  run := by
    have hrun := Gateway.traced_setPool refines g ht
    rwa [view_eq (d := false) (by simp [count, start])] at hrun
  calls := by
    refine records.holds outline lock start_excludes (fun t hmem => ?_) (fun t hmem => ?_) ht
    · have hstart : machine.Reachable Machine.Any (start conns n) _ := .start
      exact knows hstart t hmem
    · obtain ⟨-, rfl⟩ := List.mem_replicate.mp hmem
      trivial

theorem status_in_one_step_taking : Pool.status.InOneStep (Gateway.opened []) ⟨[0], false⟩
    ⟨[], false⟩ [⟨.acquire .status, some 0⟩]
    (fun t : Thread => t.place.Records (start (fun _ => [0]) 2 |>.shared.lock .stub))
    [⟨⟨.getFront .stub, false, fun _ => 0⟩, [⟨.acquire .status, some 0⟩]⟩,
      ⟨⟨.out, false, fun _ => 0⟩, []⟩] := by
  have hstart : machine.Remembers (fun s t t' => effect s t.place t'.place) (·.place.idle)
    (start (fun _ => [0]) 2) [] _ := .start
  have hcalled := hstart.moves [] [_] (.mk (show Next _ .out _ _ _ (.getLock .stub) from .getCall))
  have htested := (hcalled.moves [] [_] (.mk (.getLock rfl))).moves [] [_] (.mk (.getRuns rfl))
  have hready := htested.moves [] [_] (.mk (.getReady (.inl (List.cons_ne_nil 0 []))))
  exact status_in_one_step _ (hready.moves [] [_] (.mk (.getGoes rfl)))

end GRPCServerPool
end GateServer
