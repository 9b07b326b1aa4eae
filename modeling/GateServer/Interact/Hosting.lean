import Mathlib.Data.List.ReduceOption
import GateServer.Interact.Interleave

/-!
# Embedded programs

A program hosts another one if it performs the operations of that one in order, and
besides only operations that leave the smaller world unchanged. A run of such programs
side by side is a run of the embedded programs side by side; some programs embed none.
-/

namespace Interact

variable {Op Op' : Type} {Ans : Op → Type} {Ans' : Op' → Type} {ι ι' α β W : Type}

/-- How the operations of one kind are embedded in another. Of the other operations, quiet ones
may occur at any time, and late ones only after the embedded program has returned. -/
structure Hosting (Ans : Op → Type) (Ans' : Op' → Type) where
  put : Op → Op'
  back : ∀ op, Ans' (put op) → Ans op
  Quiet : Op' → Prop
  Late : Op' → Prop
  quiet_not_late : ∀ op, Quiet op → ¬ Late op
  put_not_late : ∀ op, ¬ Late (put op)

namespace Hosting

variable (E : Hosting Ans Ans')

def Returned (o : Option (Prog Ans α)) : Prop := ∀ p ∈ o, ∃ a, p = .done (.ret a)

inductive Hosts : Prog Ans' β → Option (Prog Ans α) → Prop
  | ends : Hosts (.done e) o
  | quiet : E.Quiet op → (∀ a, Hosts (next a) o) → Hosts (.call op next) o
  | late : E.Late op → Returned o → (∀ a, Hosts (next a) o) → Hosts (.call op next) o
  | call {next : Ans op → Prog Ans α} : (∀ a, Hosts (next' a) (some (next (E.back op a)))) →
      Hosts (.call (E.put op) next') (some (.call op next))

variable {E}

namespace Hosts

abbrev Empty (E : Hosting Ans Ans') (q : Prog Ans' β) : Prop :=
  E.Hosts q (none : Option (Prog Ans Unit))

theorem returned {q : Prog Ans' β} {o : Option (Prog Ans α)}
    (h : E.Hosts q (none : Option (Prog Ans γ))) (ho : Returned o) : E.Hosts q o := by
  induction q with
  | done e => exact .ends
  | call op next ih =>
    cases h with
    | quiet hop hnext => exact .quiet hop fun a => ih a (hnext a)
    | late hop _ hnext => exact .late hop ho fun a => ih a (hnext a)

theorem empty_bind {o : Option (Prog Ans α)} {k : β → Prog Ans' γ} (h : Empty E q)
    (ho : Returned o) (hk : ∀ b, E.Hosts (k b) o) : E.Hosts (q >>= k) o := by
  induction q with
  | done e =>
    cases e with
    | ret b => exact hk b
    | _ => exact .ends
  | call op next ih =>
    cases h with
    | quiet hop hnext => exact .quiet hop fun a => ih a (hnext a)
    | late hop _ hnext => exact .late hop ho fun a => ih a (hnext a)

theorem lift_bind (p : Prog Ans α) {k : α → Prog Ans' β} (hk : ∀ a, Empty E (k a)) :
    E.Hosts (p.lift E.put E.back >>= k) (some p) := by
  induction p with
  | done e =>
    cases e with
    | ret a =>
      refine (hk a).returned ?_
      rintro _ ⟨⟩
      exact ⟨a, rfl⟩
    | _ => exact .ends
  | call op next ih => exact .call fun a => ih (E.back op a)

theorem tryCatch {o : Option (Prog Ans α)} {handler : String → Prog Ans' β} (h : E.Hosts q o)
    (hh : ∀ w o, E.Hosts (α := α) (handler w) o) : E.Hosts (q.tryCatch handler) o := by
  induction h with
  | @ends e =>
    cases e with
    | threw w => exact hh w _
    | _ => exact .ends
  | quiet hop _ ih => exact .quiet hop ih
  | late hop ho _ ih => exact .late hop ho ih
  | call _ ih => exact .call ih

end Hosts

-- ---------------------------------------------------------------------------
-- Threads
-- ---------------------------------------------------------------------------

variable (E)

inductive Shows : Event Ans' → Option (Event Ans) → Prop
  | quiet : E.Quiet op → Shows ⟨op, a⟩ none
  | late : E.Late op → Shows ⟨op, a⟩ none
  | call : Shows ⟨E.put op, a⟩ (some ⟨op, E.back op a⟩)

def Holds (tr' : List (Event Ans')) (tr : List (Event Ans)) : Prop :=
  ∃ shown, List.Forall₂ E.Shows tr' shown ∧ tr = shown.reduceOption

/-- A thread of the host with the thread embedded in it, if its job has one. -/
inductive Carries (job? : ι' → Option ι) :
    Thread Ans' ι' β → Option (Thread Ans ι α) → Prop
  | empty : job? i = none → Hosts.Empty E q → E.Holds h [] → Carries job? ⟨i, h, q⟩ none
  | hosts : job? i = some j → E.Hosts q (some p) → E.Holds h h₀ →
      (∀ ev ∈ h, E.Late ev.op → Returned (some p)) → Carries job? ⟨i, h, q⟩ (some ⟨j, h₀, p⟩)

/-- A step of the larger world is a step of the smaller one; quiet and late operations leave
the smaller one unchanged. -/
structure Simulates (B : Arena Ans' W) (A : Arena Ans W) : Prop where
  quiet : E.Quiet op ∨ E.Late op → B.act w ⟨op, a⟩ w' → w' = w
  call : B.act w ⟨E.put op, a⟩ w' → A.act w ⟨op, E.back op a⟩ w'
  env : B.env w w' → A.env w w'

variable {E}

theorem Holds.nil : E.Holds [] [] := ⟨[], .nil, rfl⟩

theorem Holds.snoc (h : E.Holds tr' tr) (hev : E.Shows ev o) :
    E.Holds (tr' ++ [ev]) (tr ++ o.toList) := by
  obtain ⟨shown, hshown, rfl⟩ := h
  refine ⟨shown ++ [o], List.rel_append hshown (.cons hev .nil), ?_⟩
  rw [List.reduceOption_append]
  cases o <;> rfl

theorem Holds.silent (h : E.Holds tr' tr) (hop : E.Quiet op ∨ E.Late op) (a : Ans' op) :
    E.Holds (tr' ++ [⟨op, a⟩]) tr := by
  have hev : E.Shows ⟨op, a⟩ none := hop.elim .quiet .late
  simpa using h.snoc hev

end Hosting

open Hosting

variable {E : Hosting Ans Ans'} {B : Arena Ans' W} {A : Arena Ans W} {prog' : ι' → Prog Ans' β}
  {prog : ι → Prog Ans α} {job? : ι' → Option ι} {c : Config Ans' ι' β W}

theorem carries_start (hosts : ∀ i, E.Hosts (prog' i) ((job? i).map prog)) (i : ι') :
    E.Carries job? (Thread.start prog' i) ((job? i).map (Thread.start prog)) := by
  have hi := hosts i
  cases hj : job? i with
  | none =>
    rw [hj] at hi
    exact .empty hj (hi.returned nofun) .nil
  | some j =>
    rw [hj] at hi
    exact .hosts hj hi .nil nofun

theorem Hosting.Carries.step {o : Option (Thread Ans ι α)} {next : Ans' op → Prog Ans' β}
    (sim : E.Simulates B A) (hc : E.Carries job? ⟨i, h, .call op next⟩ o)
    (ha : B.act w ⟨op, a⟩ w') : ∃ o', E.Carries job? ⟨i, h ++ [⟨op, a⟩], next a⟩ o' ∧
      (w' = w ∧ o' = o ∨
        ∀ ts us, ∃ who, Step A ⟨w, ts ++ o.toList ++ us⟩ who ⟨w', ts ++ o'.toList ++ us⟩) := by
  cases hc with
  | empty hj hq hh =>
    cases hq with
    | quiet hop hnext =>
      exact ⟨none, .empty hj (hnext a) (hh.silent (.inl hop) a),
        .inl ⟨sim.quiet (.inl hop) ha, rfl⟩⟩
    | late hop _ hnext =>
      exact ⟨none, .empty hj (hnext a) (hh.silent (.inr hop) a),
        .inl ⟨sim.quiet (.inr hop) ha, rfl⟩⟩
  | hosts hj hq hh hlate =>
    cases hq with
    | quiet hop hnext =>
      refine ⟨_, .hosts hj (hnext a) (hh.silent (.inl hop) a) ?_, .inl ?_⟩
      · rw [List.forall_mem_append, List.forall_mem_singleton]
        exact ⟨hlate, fun h => absurd h (E.quiet_not_late _ hop)⟩
      · exact ⟨sim.quiet (.inl hop) ha, rfl⟩
    | late hop ho hnext =>
      refine ⟨_, .hosts hj (hnext a) (hh.silent (.inr hop) a) fun _ _ _ => ho, .inl ?_⟩
      exact ⟨sim.quiet (.inr hop) ha, rfl⟩
    | @call op _ next hnext =>
      refine ⟨_, .hosts hj (hnext a) (hh.snoc .call) ?_, .inr fun ts us => ?_⟩
      · rw [List.forall_mem_append, List.forall_mem_singleton]
        refine ⟨fun ev hev hlate' => ?_, fun h => absurd h (E.put_not_late op)⟩
        -- the program inside has not returned yet
        obtain ⟨a, ha⟩ := hlate ev hev hlate' _ rfl
        cases ha
      · simp only [Option.toList_some, List.append_assoc, List.singleton_append]
        exact ⟨_, .call (sim.call ha)⟩

/-- A run of the hosts is a run of the embedded programs. -/
theorem Reachable.hosted (hosts : ∀ i, E.Hosts (prog' i) ((job? i).map prog))
    (sim : E.Simulates B A) (hr : Reachable B (.start prog' w jobs) c) :
    ∃ inside, List.Forall₂ (E.Carries job?) c.threads inside ∧
      Reachable A (.start prog w (jobs.filterMap job?)) ⟨c.world, inside.reduceOption⟩ := by
  induction hr with
  | start =>
    refine ⟨jobs.map fun i => (job? i).map (Thread.start prog), ?_, ?_⟩
    · rw [Config.start, List.forall₂_map_left_iff, List.forall₂_map_right_iff, List.forall₂_same]
      exact fun i _ => carries_start hosts i
    · have hinside : (jobs.map fun i => (job? i).map (Thread.start prog)).reduceOption =
          (jobs.filterMap job?).map (Thread.start prog) := by
        simp [List.reduceOption, List.filterMap_map, List.map_filterMap]
      rw [hinside]
      exact .start
  | step _ hs ih =>
    obtain ⟨inside, hcarries, hreach⟩ := ih
    cases hs with
    | env he => exact ⟨inside, hcarries, hreach.step (.env (sim.env he))⟩
    | @call op w a w' ts us i h next ha =>
      obtain ⟨before, rest, rfl, hts, hrest⟩ := forall₂_append_left hcarries
      cases hrest with
      | @cons _ o _ after ht hus =>
      have hplace (o : Option (Thread Ans ι α)) : (before ++ o :: after).reduceOption =
          before.reduceOption ++ o.toList ++ after.reduceOption := by
        cases o <;> simp [List.reduceOption]
      obtain ⟨o', ho', ⟨rfl, rfl⟩ | hstep⟩ := ht.step sim ha
      · exact ⟨_, List.rel_append hts (.cons ho' hus), hreach⟩
      · obtain ⟨who, hstep⟩ := hstep before.reduceOption after.reduceOption
        rw [hplace] at hreach
        refine ⟨before ++ o' :: after, List.rel_append hts (.cons ho' hus), ?_⟩
        rw [hplace]
        exact hreach.step hstep

theorem exists_inside {ts : List (Thread Ans' ι' β)} {inside : List (Option (Thread Ans ι α))}
    (h : List.Forall₂ (E.Carries job?) ts inside) (ht : t ∈ ts) (hjob : job? t.job = some j) :
    ∃ t' ∈ inside.reduceOption, t'.job = j ∧ E.Holds t.hist t'.hist ∧
      ∀ ev ∈ t.hist, E.Late ev.op → ∃ a, t'.rest = .done (.ret a) := by
  obtain ⟨before, after, rfl⟩ := List.append_of_mem ht
  obtain ⟨inside, rest, rfl, -, hrest⟩ := forall₂_append_left h
  cases hrest with
  | cons hcarried _ =>
  cases hcarried with
  | empty hnone => cases hjob.symm.trans hnone
  | @hosts _ _ _ p _ hist hsome _ hholds hlate =>
    cases hjob.symm.trans hsome
    refine ⟨⟨j, hist, p⟩, by simp [List.reduceOption], rfl, hholds, fun ev hev hop => ?_⟩
    exact hlate ev hev hop p rfl

end Interact
