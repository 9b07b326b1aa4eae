import Mathlib.Data.List.Infix
import GateServer.Interact.Program

/-!
# Programs in lockstep

Two programs that differ only in what an observer does not see perform operations that
look alike, and continue to do so after equal answers. Two runs with the same answers then
look alike from end to end.
-/

namespace Interact

variable {Op : Type} {Ans : Op → Type} {α β γ δ Obs Out : Type}

/-- What an observer sees of an operation, and the part of an answer that is compared: none of
it, or all of it. -/
structure View (Ans : Op → Type) (Obs Out : Type) where
  look : Op → Obs
  said : Event Ans → Option Out
  alike : ∀ {op op' : Op} (a : Ans op) (a' : Ans op'), look op = look op' →
    (said ⟨op, a⟩ = none ↔ said ⟨op', a'⟩ = none)
  whole : ∀ {op : Op} {a a' : Ans op}, said ⟨op, a⟩ = said ⟨op, a'⟩ → a = a'

namespace View

variable (V : View Ans Obs Out)

def seen (tr : List (Event Ans)) : List Obs := tr.map fun ev => V.look ev.op

def told (tr : List (Event Ans)) : List Out := tr.filterMap V.said

end View

/-- One of the lists is a prefix of the other. -/
def Comparable (xs ys : List α) : Prop := xs <+: ys ∨ ys <+: xs

theorem comparable_cons {x y : α} : Comparable (x :: xs) (y :: ys) ↔ x = y ∧ Comparable xs ys := by
  simp only [Comparable, List.cons_prefix_cons, eq_comm (a := y), and_or_left]

-- ---------------------------------------------------------------------------
-- Two programs
-- ---------------------------------------------------------------------------

inductive Exit.Rel (R : α → β → Prop) : Exit α → Exit β → Prop
  | ret : R a b → Rel R (.ret a) (.ret b)
  | threw : Rel R (.threw w) (.threw w)
  | undef : Rel R (.undef u) (.undef u)

inductive Lockstep (V : View Ans Obs Out) (R : α → β → Prop) : Prog Ans α → Prog Ans β → Prop
  | done : Exit.Rel R e e' → Lockstep V R (.done e) (.done e')
  | call : V.look op = V.look op' →
      (∀ a a', V.said ⟨op, a⟩ = V.said ⟨op', a'⟩ → Lockstep V R (next a) (next' a')) →
      Lockstep V R (.call op next) (.call op' next')

namespace Lockstep

variable {V : View Ans Obs Out} {R : α → β → Prop} {S : γ → δ → Prop}

theorem ret (h : R a b) : Lockstep V R (pure a) (pure b) := .done (.ret h)

theorem refl (p : Prog Ans α) : Lockstep V Eq p p := by
  induction p with
  | done e => cases e with
    | ret a => exact .ret rfl
    | threw w => exact .done .threw
    | undef u => exact .done .undef
  | call op next ih =>
    refine .call rfl fun a a' h => ?_
    cases V.whole h
    exact ih a

theorem of_eq {p p' : Prog Ans α} (h : p = p') : Lockstep V Eq p p' := h ▸ refl p

theorem mono {R' : α → β → Prop} (h : Lockstep V R p p') (hR : ∀ a b, R a b → R' a b) :
    Lockstep V R' p p' := by
  induction h with
  | done he =>
    refine .done ?_
    cases he with
    | ret h => exact .ret (hR _ _ h)
    | threw => exact .threw
    | undef => exact .undef
  | call hop _ ih => exact .call hop ih

theorem bind {f : α → Prog Ans γ} {f' : β → Prog Ans δ} (h : Lockstep V R p p')
    (hf : ∀ a b, R a b → Lockstep V S (f a) (f' b)) : Lockstep V S (p >>= f) (p' >>= f') := by
  induction h with
  | done he =>
    cases he with
    | ret h => exact hf _ _ h
    | threw => exact .done .threw
    | undef => exact .done .undef
  | call hop _ ih => exact .call hop ih

theorem before (p : Prog Ans α) {f : α → Prog Ans γ} {f' : α → Prog Ans δ}
    (hf : ∀ a, Lockstep V S (f a) (f' a)) : Lockstep V S (p >>= f) (p >>= f') := by
  apply (refl p).bind
  rintro a _ rfl
  exact hf a

theorem branch {c : Prop} [Decidable c] {q : Prog Ans α} {q' : Prog Ans β}
    (h : c → Lockstep V R p p') (hn : ¬ c → Lockstep V R q q') :
    Lockstep V R (if c then p else q) (if c then p' else q') := by
  by_cases hc : c
  · rw [if_pos hc, if_pos hc]
    exact h hc
  · rw [if_neg hc, if_neg hc]
    exact hn hc

theorem tryCatch {handler : String → Prog Ans α} {handler' : String → Prog Ans β}
    (h : Lockstep V R p p') (hh : ∀ w, Lockstep V R (handler w) (handler' w)) :
    Lockstep V R (p.tryCatch handler) (p'.tryCatch handler') := by
  induction h with
  | done he =>
    cases he with
    | ret h => exact .ret h
    | threw => exact hh _
    | undef => exact .done .undef
  | call hop _ ih => exact .call hop ih

theorem ask {op op' : Op} (hop : V.look op = V.look op') :
    Lockstep V (fun a a' => V.said ⟨op, a⟩ = V.said ⟨op', a'⟩) (Prog.ask op) (Prog.ask op') :=
  .call hop fun _ _ h => .ret h

theorem ofExcept {x x' : Except String α} (h : x = x') :
    Lockstep V Eq (Prog.ofExcept x) (Prog.ofExcept x') := of_eq (congrArg _ h)

theorem runs {p : Prog Ans α} {p' : Prog Ans β} (h : Lockstep V R p p') (hr : Runs p tr e)
    (hr' : Runs p' tr' e') (ht : Comparable (V.told tr) (V.told tr')) :
    V.seen tr = V.seen tr' ∧ Exit.Rel R e e' := by
  induction h generalizing tr tr' with
  | done he =>
    cases hr
    cases hr'
    exact ⟨rfl, he⟩
  | @call op op' next next' hop _ ih =>
    cases hr with
    | call a hr =>
    cases hr' with
    | call a' hr' =>
    have hnone := V.alike a a' hop
    simp only [View.seen, List.map_cons, hop, List.cons.injEq, true_and]
    cases hs : V.said ⟨op, a⟩ with
    | none =>
      have hs' := hnone.mp hs
      simp only [View.told, List.filterMap_cons, hs, hs'] at ht
      exact ih a a' (hs.trans hs'.symm) hr hr' ht
    | some x =>
      obtain ⟨y, hs'⟩ := Option.ne_none_iff_exists'.mp (mt hnone.mpr (by simp [hs]))
      simp only [View.told, List.filterMap_cons, hs, hs', comparable_cons] at ht
      obtain ⟨rfl, ht⟩ := ht
      exact ih a a' (hs.trans hs'.symm) hr hr' ht

end Lockstep
end Interact
