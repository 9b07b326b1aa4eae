import GateServer.Interact.Program

/-!
# Programs that stop at a bad answer

A program that continues after every good answer, and ends without a value right after any
other. Its end is determined by its answers.
-/

namespace Interact

variable {Op : Type} {Ans : Op → Type} {α β : Type}

/-- An exception (`none`) or the fault, and no value. -/
def Exit.Fails (u : Option Fault) : Exit α → Prop
  | .ret _ => False
  | .threw _ => u = none
  | .undef v => u = some v

def Stops (u : Option Fault) (p : Prog Ans α) : Prop := ∃ e, p = .done e ∧ e.Fails u

/-- `how` is the failure that a bad answer leads to. -/
def Passes (May : Op → Prop) (Good : Event Ans → Prop) (how : Event Ans → Option Fault) :
    Prog Ans α → Prop
  | .done e => ∃ a, e = .ret a
  | .call op next => May op ∧ ∀ a, (Good ⟨op, a⟩ → Passes May Good how (next a)) ∧
      (¬ Good ⟨op, a⟩ → Stops (how ⟨op, a⟩) (next a))

theorem stops_threw (w : String) : Stops none (.done (.threw w) : Prog Ans α) := ⟨_, rfl, rfl⟩

theorem stops_fault (v : Fault) : Stops (some v) (Prog.fault v : Prog Ans α) := ⟨_, rfl, rfl⟩

theorem Stops.bind {p : Prog Ans α} {f : α → Prog Ans β} (h : Stops u p) : Stops u (p >>= f) := by
  obtain ⟨e, rfl, hfails⟩ := h
  cases e with
  | ret a => exact hfails.elim
  | threw w => exact ⟨_, rfl, hfails⟩
  | undef v => exact ⟨_, rfl, hfails⟩

theorem Stops.ends {p : Prog Ans α} (h : Stops u p) (hr : Runs p tr e) : tr = [] ∧ e.Fails u := by
  obtain ⟨e', rfl, hfails⟩ := h
  cases hr
  exact ⟨rfl, hfails⟩

namespace Passes

variable {May : Op → Prop} {Good : Event Ans → Prop} {how : Event Ans → Option Fault}
  {p : Prog Ans α}

theorem pure (a : α) : Passes May Good how (Pure.pure a : Prog Ans α) := ⟨a, rfl⟩

theorem ask (hmay : May op) (hgood : ∀ a : Ans op, Good ⟨op, a⟩) :
    Passes May Good how (Prog.ask op) :=
  ⟨hmay, fun a => ⟨fun _ => pure a, fun hbad => absurd (hgood a) hbad⟩⟩

theorem ask_bind {f : Ans op → Prog Ans β} (hmay : May op)
    (hgood : ∀ a, Good ⟨op, a⟩ → Passes May Good how (f a))
    (hbad : ∀ a, ¬ Good ⟨op, a⟩ → Stops (how ⟨op, a⟩) (f a)) :
    Passes May Good how (Prog.ask op >>= f) := ⟨hmay, fun a => ⟨hgood a, hbad a⟩⟩

theorem bind {f : α → Prog Ans β} (hp : Passes May Good how p)
    (hf : ∀ a, Passes May Good how (f a)) : Passes May Good how (p >>= f) := by
  induction p with
  | done e =>
    obtain ⟨a, rfl⟩ := hp
    exact hf a
  | call op next ih =>
    refine ⟨hp.1, fun a => ⟨fun hgood => ?_, fun hbad => ?_⟩⟩
    · exact ih a ((hp.2 a).1 hgood)
    · exact ((hp.2 a).2 hbad).bind

theorem asks (h : Passes May Good how p) (hr : Runs p tr e) : ∀ ev ∈ tr, May ev.op := by
  induction p generalizing tr with
  | done e' =>
    cases hr
    simp
  | call op next ih =>
    cases hr with
    | call a hr =>
    rw [List.forall_mem_cons]
    refine ⟨h.1, ?_⟩
    by_cases hgood : Good ⟨op, a⟩
    · exact ih a ((h.2 a).1 hgood) hr
    · obtain ⟨rfl, -⟩ := ((h.2 a).2 hgood).ends hr
      simp

/-- It returns if all answers are good, and otherwise fails at the first one that is not. -/
theorem ends (h : Passes May Good how p) (hr : Runs p tr e) :
    ((∃ a, e = .ret a) ∧ ∀ ev ∈ tr, Good ev) ∨
    ∃ before ev, tr = before ++ [ev] ∧ (∀ ev ∈ before, Good ev) ∧ ¬ Good ev ∧ e.Fails (how ev) := by
  induction p generalizing tr with
  | done e' =>
    cases hr
    exact .inl ⟨h, by simp⟩
  | call op next ih =>
    cases hr with
    | call a hr =>
    by_cases hgood : Good ⟨op, a⟩
    · obtain ⟨hret, hall⟩ | ⟨before, ev, rfl, hbefore, hbad, hfails⟩ := ih a ((h.2 a).1 hgood) hr
      · exact .inl ⟨hret, List.forall_mem_cons.mpr ⟨hgood, hall⟩⟩
      · exact .inr ⟨⟨op, a⟩ :: before, ev, rfl, List.forall_mem_cons.mpr ⟨hgood, hbefore⟩, hbad,
          hfails⟩
    · obtain ⟨rfl, hfails⟩ := ((h.2 a).2 hgood).ends hr
      exact .inr ⟨[], ⟨op, a⟩, rfl, by simp, hgood, hfails⟩

end Passes
end Interact
