import GateServer.Interact.Interleave

/-!
# Answers that a program does not distinguish

A program is blind to the difference of two answers if it continues as the same program
after either. In an interleaving such answers can be exchanged.
-/

namespace Interact

variable {Op : Type} {Ans : Op → Type} {α β ι W : Type}

def Blind (E : (op : Op) → Ans op → Ans op → Prop) : Prog Ans α → Prop
  | .done _ => True
  | .call op next => (∀ a a', E op a a' → next a = next a') ∧ ∀ a, Blind E (next a)

namespace Blind

variable {E : (op : Op) → Ans op → Ans op → Prop} {p q : Prog Ans α}

theorem pure (a : α) : Blind E (Pure.pure a : Prog Ans α) := trivial

theorem fault (u : Fault) : Blind E (Prog.fault u : Prog Ans α) := trivial

theorem ask (hop : ∀ a a', E op a a' → a = a') : Blind E (Prog.ask op) :=
  ⟨fun a a' h => hop a a' h ▸ rfl, fun _ => trivial⟩

theorem ofExcept (x : Except String α) : Blind E (Prog.ofExcept x : Prog Ans α) := by
  cases x <;> trivial

theorem ofOption (u : Fault) (x : Option α) : Blind E (Prog.ofOption u x : Prog Ans α) := by
  cases x <;> trivial

theorem bind {f : α → Prog Ans β} (hp : Blind E p) (hf : ∀ a, Blind E (f a)) :
    Blind E (p >>= f) := by
  induction p with
  | done e =>
    cases e with
    | ret a => exact hf a
    | _ => trivial
  | call op next ih =>
    exact ⟨fun a a' h => congrArg (· >>= f) (hp.1 a a' h), fun a => ih a (hp.2 a)⟩

theorem branch {c : Prop} [Decidable c] (hp : Blind E p) (hq : Blind E q) :
    Blind E (if c then p else q) := by
  by_cases hc : c
  · rwa [if_pos hc]
  · rwa [if_neg hc]

theorem of_runs (hans : ∀ op, Nonempty (Ans op))
    (h : ∀ tr e, Runs p tr e → ∀ ev ∈ tr, ∀ a a', E ev.op a a' → a = a') : Blind E p := by
  induction p with
  | done e => trivial
  | call op next ih =>
    have hnext (a : Ans op) : Blind E (next a) :=
      ih a fun tr e hr ev hev => h _ e (.call a hr) ev (.tail _ hev)
    refine ⟨fun a a' ha => ?_, hnext⟩
    obtain ⟨tr, e, hr, -⟩ := exists_runs (P := .any) (fun op => ⟨(hans op).some, trivial⟩) (next a)
    exact congrArg next (h _ e (.call a hr) ⟨op, a⟩ (.head _) a a' ha)

theorem steps (hp : Blind E p) (hs : Steps p tr q) : Blind E q := by
  induction hs with
  | refl => exact hp
  | call a _ ih => exact ih (hp.2 a)

end Blind

-- ---------------------------------------------------------------------------
-- Interleavings
-- ---------------------------------------------------------------------------

/-- Two events of one operation whose answers are related. -/
inductive Event.Like (E : (op : Op) → Ans op → Ans op → Prop) : Event Ans → Event Ans → Prop
  | mk {op : Op} {a a' : Ans op} : E op a a' → Like E ⟨op, a⟩ ⟨op, a'⟩

inductive Thread.Reanswered (E : ι → (op : Op) → Ans op → Ans op → Prop) :
    Thread Ans ι α → Thread Ans ι α → Prop
  | mk {i : ι} {h h' : List (Event Ans)} {p : Prog Ans α} :
      List.Forall₂ (Event.Like (E i)) h h' → Reanswered E ⟨i, h, p⟩ ⟨i, h', p⟩

variable {E : ι → (op : Op) → Ans op → Ans op → Prop} {A : Arena Ans W} {prog : ι → Prog Ans α}
  {c : Config Ans ι α W}

theorem reanswered_start {jobs : List ι} {ts : List (Thread Ans ι α)}
    (h : List.Forall₂ (Thread.Reanswered E) (jobs.map (Thread.start prog)) ts) :
    ts = jobs.map (Thread.start prog) := by
  induction jobs generalizing ts with
  | nil =>
    cases h
    rfl
  | cons i jobs ih =>
    cases h with
    | cons ht hts =>
      cases ht with
      | mk hhist =>
        cases hhist
        rw [ih hts]
        rfl

/-- A reachable configuration is reachable with related answers too, if no program
distinguishes them and the world allows both. -/
theorem Reachable.reanswered (hb : ∀ i, Blind (E i) (prog i))
    (hact : ∀ i w ev ev' w', A.act w ev w' → Event.Like (E i) ev ev' → A.act w ev' w')
    (hr : Reachable A (.start prog w jobs) c)
    (hts : List.Forall₂ (Thread.Reanswered E) c.threads ts) :
    Reachable A (.start prog w jobs) ⟨c.world, ts⟩ := by
  induction hr generalizing ts with
  | start =>
    rw [reanswered_start hts]
    exact .start
  | step hr hs ih =>
    cases hs with
    | env henv => exact (ih hts).step (.env henv)
    | @call op w a w' us vs i h next ha =>
      have hsteps := hr.steps ⟨i, h, .call op next⟩ (by simp)
      obtain ⟨us', rest, rfl, hus, hrest⟩ := forall₂_append_left hts
      cases hrest with
      | cons ht hvs =>
      cases ht with
      | mk hhist =>
      obtain ⟨h', last, rfl, hh, hlast⟩ := forall₂_append_left hhist
      cases hlast with
      | cons hev hnil =>
      cases hnil
      cases hev with
      | @mk _ _ a' ha' =>
      have hbefore := ih (List.rel_append hus (.cons (.mk hh) hvs))
      have hsame : next a = next a' := ((hb i).steps hsteps).1 a a' ha'
      rw [hsame]
      exact hbefore.step (.call (hact i _ _ _ _ ha (.mk ha')))

end Interact
