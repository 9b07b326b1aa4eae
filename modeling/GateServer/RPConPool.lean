import GateServer.Gateway
import GateServer.VarfiyGrpcClient
import Mathlib.Data.List.ReduceOption
import Mathlib.Data.Multiset.Range

/-!
# The pool of verification stubs

The stubs are kept in a vector of owning pointers. A caller gets the stub of the first
slot, and the last slot is removed.
-/

namespace GateServer

open Interact

/-- A slot whose stub was moved out is null. -/
structure RPConPool where
  connections : List (Option Conn)
  isRunning : Bool

namespace RPConPool

def create (poolSize : Nat) : RPConPool := ⟨(List.range poolSize).map some, true⟩

inductive Gets : RPConPool → Option Conn → RPConPool → Prop
  | stopped : Gets ⟨slots, false⟩ none ⟨slots, false⟩
  | moved : Gets ⟨slot :: slots, true⟩ slot ⟨(none :: slots).dropLast, true⟩

/-- `returnConnection` to a pool that has stopped destroys the stub. -/
inductive TakesBack : RPConPool → Conn → RPConPool → Prop
  | pushed : TakesBack ⟨slots, true⟩ conn ⟨slots ++ [some conn], true⟩
  | destroyed : TakesBack ⟨slots, false⟩ conn ⟨slots, false⟩

/-- The destructor clears the flag, and then locks and empties the vector. -/
inductive Stops : RPConPool → RPConPool → Prop
  | store : Stops ⟨slots, running⟩ ⟨slots, false⟩
  | empty : Stops ⟨slots, false⟩ ⟨[], false⟩

inductive Acts : RPConPool → Ev → RPConPool → Prop
  | get : Gets p conn p' → Acts p ⟨.acquire .varify, conn⟩ p'
  | takeBack : TakesBack p conn p' → Acts p ⟨.release .varify conn, ()⟩ p'
  | other : Op.pool? ev.op ≠ some .varify → Acts p ev p

def arena : Arena Ans RPConPool where
  act := Acts
  env := Stops

def stubs (p : RPConPool) : Multiset Conn := p.connections.reduceOption

/-- Nothing is lost, duplicated or null: the stored and the held stubs are those of the
constructor, each once, and every answer was one of them. -/
structure Safe (poolSize : Nat) (c : Config Ans ι α RPConPool) : Prop where
  total : c.world.stubs + allHeld (Gateway.moves .varify) c.threads = Multiset.range poolSize
  full : none ∉ c.world.connections
  answered : ∀ t ∈ c.threads, ⟨.acquire .varify, none⟩ ∉ t.hist

def Callers (prog : ι → Act α) : Prop :=
  ∀ i, Borrows (fun _ => True) (Gateway.moves .varify) (prog i)

@[simp] theorem stubs_push (slots : List (Option Conn)) (conn : Conn) (running : Bool) :
    stubs ⟨slots ++ [some conn], running⟩ = conn ::ₘ stubs ⟨slots, running⟩ := by
  simp [stubs, List.reduceOption_append, ← Multiset.coe_add, add_comm _ {conn}]

theorem create_stubs (n : Nat) : (create n).stubs = Multiset.range n := by
  simp [create, stubs, Multiset.range, List.reduceOption, List.filterMap_map]

theorem create_full (n : Nat) : none ∉ (create n).connections := by
  simp [create]

theorem Gets.single {p p' : RPConPool} (hg : Gets p slot p') (hrun : p'.isRunning = true)
    (hfull : none ∉ p.connections) (hcard : p.stubs.card ≤ 1) :
    ∃ conn, slot = some conn ∧ p = ⟨[some conn], true⟩ ∧ p' = ⟨[], true⟩ := by
  cases hg with
  | stopped => cases hrun
  | @moved _ slots =>
    cases slot with
    | none => exact absurd (List.mem_cons_self ..) hfull
    | some conn =>
      cases slots with
      | nil => exact ⟨conn, rfl, rfl, rfl⟩
      | cons slot slots =>
        cases slot with
        | none => exact absurd (by simp) hfull
        | some conn' => simp [stubs] at hcard

theorem running_of_step {c c' : Config Ans ι α RPConPool} (hs : Step arena c who c')
    (hrun : c'.world.isRunning = true) : c.world.isRunning = true := by
  cases hs with
  | env hstop => cases hstop <;> cases hrun
  | call hact =>
    cases hact with
    | get hg => cases hg <;> first | rfl | cases hrun
    | takeBack ht => cases ht <;> first | rfl | cases hrun
    | other => exact hrun

theorem answered_step {c c' : Config Ans ι α RPConPool} (hs : Step arena c (some (t, ev)) c')
    (hev : ev ≠ ⟨.acquire .varify, none⟩)
    (ha : ∀ t ∈ c.threads, ⟨.acquire .varify, none⟩ ∉ t.hist) :
    ∀ t ∈ c'.threads, ⟨.acquire .varify, none⟩ ∉ t.hist := by
  intro t ht
  rcases hs.threads ht with ht | ⟨op, a, next, h, heq, ht, hwho⟩
  · exact ha t ht
  · rw [heq, List.mem_append, List.mem_singleton, not_or]
    cases hwho
    exact ⟨ha _ ht, hev.symm⟩

theorem Safe.step {prog : ι → Act α} {c c' : Config Ans ι α RPConPool} (hb : Callers prog)
    (hn : n ≤ 1) (hr : Reachable arena (.start prog (create n) jobs) c) (hsafe : Safe n c)
    (hs : Step arena c who c') (hrun : c'.world.isRunning = true) : Safe n c' := by
  have hcard : c.world.stubs.card ≤ 1 := by
    have := congrArg Multiset.card hsafe.total
    simp only [Multiset.card_add, Multiset.card_range] at this
    omega
  cases hs with
  | env hstop => cases hstop <;> cases hrun
  | @call op w a w' ts us i h next hact =>
    have hsteps := hr.steps ⟨i, h, .call op next⟩ (by simp)
    have htotal := hsafe.total
    rw [allHeld_split] at htotal
    cases hact with
    | get hg =>
      obtain ⟨conn, rfl, rfl, rfl⟩ := hg.single hrun hsafe.full hcard
      refine ⟨?_, by simp, answered_step (.call (.get hg)) (by simp) hsafe.answered⟩
      have hle := (hb i).givenBack_le hsteps fun _ _ => trivial
      rw [allHeld_split, held_take hle (Gateway.moves_acquire ..), ← htotal]
      simp [stubs]
    | @takeBack conn _ ht =>
      have hmem : conn ∈ held (Gateway.moves .varify) h := Spec.asks (hb i) (hsteps.snoc ())
        (fun _ _ => trivial) () conn (Gateway.moves_release ..)
      refine ⟨?_, ?_, answered_step (.call (.takeBack ht)) (by simp) hsafe.answered⟩
      · cases ht with
        | destroyed => cases hrun
        | pushed =>
          rw [allHeld_split, stubs_push, ← htotal, held_give hmem (Gateway.moves_release ..)]
          simp
      · cases ht with
        | destroyed => cases hrun
        | pushed => simpa using hsafe.full
    | other hop =>
      refine ⟨?_, hsafe.full, answered_step (.call (.other hop)) ?_ hsafe.answered⟩
      · rw [allHeld_split, held_stay (Gateway.moves_of_pool_ne hop), htotal]
      · rintro ⟨⟩
        exact hop rfl

/-- A pool of at most one stub is safe while it runs. -/
theorem safe_of_le_one {prog : ι → Act α} {c : Config Ans ι α RPConPool} (hb : Callers prog)
    (hn : n ≤ 1) (hr : Reachable arena (.start prog (create n) jobs) c)
    (hrun : c.world.isRunning = true) : Safe n c := by
  induction hr with
  | start =>
    refine ⟨?_, create_full n, ?_⟩
    · simp [Config.start, allHeld_start, create_stubs]
    · simp [Config.start, Thread.start]
  | step hr hs ih => exact (ih (running_of_step hs hrun)).step hb hn hr hs hrun

-- ---------------------------------------------------------------------------
-- The gateway's callers
-- ---------------------------------------------------------------------------

theorem getVarifyCode_callers : Callers VarfiyGrpcClient.getVarifyCode := by
  intro email
  refine Borrows.of_runs (fun op => ⟨op.answer, trivial⟩) fun tr e hrun _ => ?_
  obtain ⟨rsp, -, hr⟩ := varifyClient_runs hrun
  cases hr with
  | noStub => exact Gateway.settles_null (by simp)
  | sent =>
    exact Gateway.settles_once (m := [_]) (t := []) (by simp) (by simp)
  | failed =>
    exact Gateway.settles_once (m := [_]) (t := [_]) (by simp) (by simp)

/-- The first call to a pool of several stubs leaves a null slot and destroys another stub. -/
theorem first_call_leaves_null (hn : 2 ≤ n) : ∃ c,
    Reachable arena (.start VarfiyGrpcClient.getVarifyCode (create n) ["e"]) c ∧
      c.world.isRunning = true ∧ none ∈ c.world.connections := by
  obtain ⟨slot, slot', slots, hcreate⟩ :
      ∃ slot slot' slots, create n = ⟨slot :: slot' :: slots, true⟩ := by
    obtain ⟨k, rfl⟩ := Nat.exists_eq_add_of_le' hn
    simp [create, List.range_succ_eq_map]
  rw [hcreate]
  exact ⟨_, .step .start (.call (t := []) (u := []) (.get .moved)), rfl, by simp⟩

/-- A pool conserves its stubs in every run iff it has at most one. -/
theorem conserves_iff (n : Nat) :
    (∀ (ι α : Type) (prog : ι → Act α), Callers prog → ∀ jobs c,
      Reachable arena (.start prog (create n) jobs) c → c.world.isRunning = true → Safe n c) ↔
    n ≤ 1 := by
  constructor
  · intro hall
    by_contra hn
    obtain ⟨c, hr, hrun, hnull⟩ := first_call_leaves_null (n := n) (by omega)
    exact (hall _ _ _ getVarifyCode_callers _ c hr hrun).full hnull
  · intro hn ι α prog hb jobs c hr hrun
    exact safe_of_le_one hb hn hr hrun

theorem second_call_gets_null : ∃ c,
    Reachable arena (.start VarfiyGrpcClient.getVarifyCode (create 2) ["e", "f"]) c ∧
      c.world.isRunning = true ∧ ¬ Safe 2 c := by
  refine ⟨_, .step (.step .start (.call (t := []) (u := [_]) (.get .moved)))
    (.call (t := [_]) (u := []) (.get .moved)), rfl, fun h => ?_⟩
  exact h.answered _ (.tail _ (.head _)) (.head _)

end RPConPool
end GateServer
