import Mathlib.Logic.Relation

/-!
# Programs with external operations

A `Prog` is a finite tree of operations, each of which is answered by the world. It ends
by returning a value, by throwing, or with undefined behaviour. `Spec` is the program
logic: what a program may ask after each history, and what holds at its end, for all
answers that are assumed of the world.
-/

namespace Interact

/-- Undefined behaviour: nothing is promised about a run from here on. -/
inductive Fault
  | offEnd
  | nullPointer
  | emptyOptional
  | outOfRange
  | relock
  deriving DecidableEq, Repr

inductive Exit (α : Type)
  | ret (a : α)
  | threw (what : String)
  | undef (why : Fault)

def Exit.Defined : Exit α → Prop
  | .undef _ => False
  | _ => True

@[simp] theorem Exit.defined_ret (a : α) : (Exit.ret a).Defined := trivial
@[simp] theorem Exit.defined_threw (w : String) : (Exit.threw w : Exit α).Defined := trivial
@[simp] theorem Exit.defined_undef (u : Fault) : ¬ (Exit.undef u : Exit α).Defined := id

def Exit.map (f : α → β) : Exit α → Exit β
  | .ret a => .ret (f a)
  | .threw w => .threw w
  | .undef u => .undef u

def Exit.Threw : Exit α → Prop
  | .threw _ => True
  | _ => False

@[simp] theorem Exit.threw_ret (a : α) : ¬ (Exit.ret a).Threw := id
@[simp] theorem Exit.threw_threw (w : String) : (Exit.threw w : Exit α).Threw := trivial
@[simp] theorem Exit.threw_undef (u : Fault) : ¬ (Exit.undef u : Exit α).Threw := id

inductive Prog {Op : Type} (Ans : Op → Type) (α : Type)
  | done (e : Exit α)
  | call (op : Op) (next : Ans op → Prog Ans α)

structure Event {Op : Type} (Ans : Op → Type) where
  op : Op
  ans : Ans op

variable {Op : Type} {Ans : Op → Type} {α β : Type}

namespace Prog

def bind : Prog Ans α → (α → Prog Ans β) → Prog Ans β
  | .done (.ret a), f => f a
  | .done (.threw w), _ => .done (.threw w)
  | .done (.undef u), _ => .done (.undef u)
  | .call op next, f => .call op fun a => (next a).bind f

instance : Monad (Prog Ans) where
  pure a := .done (.ret a)
  bind := bind

/-- Only exceptions are caught, and a fault is not an exception. -/
def tryCatch : Prog Ans α → (String → Prog Ans α) → Prog Ans α
  | .done (.ret a), _ => .done (.ret a)
  | .done (.threw w), handler => handler w
  | .done (.undef u), _ => .done (.undef u)
  | .call op next, handler => .call op fun a => (next a).tryCatch handler

def ask (op : Op) : Prog Ans (Ans op) := .call op fun a => .done (.ret a)

def fault (u : Fault) : Prog Ans α := .done (.undef u)

def ofExcept : Except String α → Prog Ans α
  | .ok a => .done (.ret a)
  | .error w => .done (.threw w)

def ofOption (u : Fault) : Option α → Prog Ans α
  | some a => .done (.ret a)
  | none => .done (.undef u)

@[simp] theorem done_ret (a : α) : (.done (.ret a) : Prog Ans α) = pure a := rfl
@[simp] theorem bind_threw (w : String) (f : α → Prog Ans β) :
    (.done (.threw w) : Prog Ans α) >>= f = .done (.threw w) := rfl
@[simp] theorem bind_undef (u : Fault) (f : α → Prog Ans β) :
    (.done (.undef u) : Prog Ans α) >>= f = .done (.undef u) := rfl
@[simp] theorem bind_call (op : Op) (next : Ans op → Prog Ans α) (f : α → Prog Ans β) :
    (.call op next : Prog Ans α) >>= f = .call op fun a => next a >>= f := rfl
@[simp] theorem ofExcept_ok (a : α) : (ofExcept (.ok a) : Prog Ans α) = pure a := rfl
@[simp] theorem ofExcept_error (w : String) :
    (ofExcept (.error w) : Prog Ans α) = .done (.threw w) := rfl
@[simp] theorem ofOption_some (u : Fault) (a : α) :
    (ofOption u (some a) : Prog Ans α) = pure a := rfl
@[simp] theorem ofOption_none (u : Fault) :
    (ofOption u none : Prog Ans α) = .done (.undef u) := rfl

instance : LawfulMonad (Prog Ans) := by
  refine LawfulMonad.mk' _ ?_ (fun _ _ => rfl) ?_
  · intro α p
    induction p with
    | done e => cases e <;> rfl
    | call op next ih => exact congrArg (Prog.call op) (funext ih)
  · intro α β γ p f g
    induction p with
    | done e => cases e <;> rfl
    | call op next ih => exact congrArg (Prog.call op) (funext ih)

end Prog

-- ---------------------------------------------------------------------------
-- Runs
-- ---------------------------------------------------------------------------

/-- `Steps p tr q`: with the answers in `tr`, the program `p` becomes `q`. -/
inductive Steps : Prog Ans α → List (Event Ans) → Prog Ans α → Prop
  | refl : Steps p [] p
  | call (a : Ans op) : Steps (next a) tr q → Steps (.call op next) (⟨op, a⟩ :: tr) q

abbrev Runs (p : Prog Ans α) (tr : List (Event Ans)) (e : Exit α) : Prop := Steps p tr (.done e)

theorem Steps.trans {p q r : Prog Ans α} (h : Steps p tr q) (h' : Steps q tr' r) :
    Steps p (tr ++ tr') r := by
  induction h with
  | refl => exact h'
  | call a _ ih => exact .call a (ih h')

theorem Steps.snoc {p : Prog Ans α} {next : Ans op → Prog Ans α} (h : Steps p tr (.call op next))
    (a : Ans op) : Steps p (tr ++ [⟨op, a⟩]) (next a) :=
  h.trans (.call a .refl)

theorem Steps.split {p r : Prog Ans α} (h : Steps p (tr ++ tr') r) :
    ∃ q, Steps p tr q ∧ Steps q tr' r := by
  induction tr generalizing p with
  | nil => exact ⟨p, .refl, h⟩
  | cons ev tr ih =>
    cases h with
    | call a h =>
      obtain ⟨q, hq, hr⟩ := ih h
      exact ⟨q, .call a hq, hr⟩

-- ---------------------------------------------------------------------------
-- Specifications
-- ---------------------------------------------------------------------------

/-- What is assumed of the answers, and what a program guarantees about its operations after
each history. -/
structure Protocol (Ans : Op → Type) where
  rely : Event Ans → Prop
  guar : List (Event Ans) → Op → Prop

def Protocol.any : Protocol Ans where
  rely _ := True
  guar _ _ := True

@[simp] theorem Protocol.any_rely (ev : Event Ans) : Protocol.any.rely ev := trivial
@[simp] theorem Protocol.any_guar (h : List (Event Ans)) (op : Op) : Protocol.any.guar h op :=
  trivial

def Spec (P : Protocol Ans) (h : List (Event Ans)) :
    Prog Ans α → (List (Event Ans) → Exit α → Prop) → Prop
  | .done e, Q => Q h e
  | .call op next, Q => P.guar h op ∧ ∀ a, P.rely ⟨op, a⟩ → Spec P (h ++ [⟨op, a⟩]) (next a) Q

variable {P : Protocol Ans} {h : List (Event Ans)} {Q : List (Event Ans) → Exit α → Prop}

@[simp] theorem spec_done : Spec P h (.done e) Q ↔ Q h e := Iff.rfl
@[simp] theorem spec_pure : Spec P h (pure a : Prog Ans α) Q ↔ Q h (.ret a) := Iff.rfl
@[simp] theorem spec_fault : Spec P h (Prog.fault u : Prog Ans α) Q ↔ Q h (.undef u) := Iff.rfl

theorem spec_call : Spec P h (.call op next : Prog Ans α) Q ↔
    P.guar h op ∧ ∀ a, P.rely ⟨op, a⟩ → Spec P (h ++ [⟨op, a⟩]) (next a) Q := Iff.rfl

theorem Spec.call {next : Ans op → Prog Ans α} (hf : ∀ a, Spec .any (h ++ [⟨op, a⟩]) (next a) Q) :
    Spec .any h (.call op next) Q := ⟨trivial, fun a _ => hf a⟩

theorem Spec.mono {p : Prog Ans α} {Q' : List (Event Ans) → Exit α → Prop} (hp : Spec P h p Q)
    (hq : ∀ h' e, Q h' e → Q' h' e) : Spec P h p Q' := by
  induction p generalizing h with
  | done e => exact hq _ _ hp
  | call op next ih => exact ⟨hp.1, fun a ha => ih a (hp.2 a ha)⟩

theorem Spec.guar_mono {rely : Event Ans → Prop} {guar guar' : List (Event Ans) → Op → Prop}
    {p : Prog Ans α} (hp : Spec ⟨rely, guar⟩ h p Q) (hg : ∀ h' op, guar h' op → guar' h' op) :
    Spec ⟨rely, guar'⟩ h p Q := by
  induction p generalizing h with
  | done e => exact hp
  | call op next ih => exact ⟨hg _ _ hp.1, fun a ha => ih a (hp.2 a ha)⟩

/-- A return value is passed on; an exception or a fault ends the sequence. -/
def andThen (f : α → Prog Ans β) (P : Protocol Ans) (Q : List (Event Ans) → Exit β → Prop)
    (h : List (Event Ans)) : Exit α → Prop
  | .ret a => Spec P h (f a) Q
  | .threw w => Q h (.threw w)
  | .undef u => Q h (.undef u)

theorem spec_bind {f : α → Prog Ans β} {Q : List (Event Ans) → Exit β → Prop} {p : Prog Ans α} :
    Spec P h (p >>= f) Q ↔ Spec P h p (andThen f P Q) := by
  induction p generalizing h with
  | done e => cases e <;> exact Iff.rfl
  | call op next ih =>
    simp only [Prog.bind_call, spec_call]
    exact and_congr_right fun _ => forall_congr' fun a => imp_congr_right fun _ => ih a

theorem spec_map {f : α → β} {Q : List (Event Ans) → Exit β → Prop} {p : Prog Ans α} :
    Spec P h (f <$> p) Q ↔ Spec P h p fun h' e => Q h' (e.map f) := by
  induction p generalizing h with
  | done e => cases e <;> exact Iff.rfl
  | call op next ih =>
    exact and_congr_right fun _ => forall_congr' fun a => imp_congr_right fun _ => ih a

def orElse (handler : String → Prog Ans α) (P : Protocol Ans)
    (Q : List (Event Ans) → Exit α → Prop) (h : List (Event Ans)) : Exit α → Prop
  | .ret a => Q h (.ret a)
  | .threw w => Spec P h (handler w) Q
  | .undef u => Q h (.undef u)

theorem spec_tryCatch {handler : String → Prog Ans α} {p : Prog Ans α} :
    Spec P h (p.tryCatch handler) Q ↔ Spec P h p (orElse handler P Q) := by
  induction p generalizing h with
  | done e => cases e <;> exact Iff.rfl
  | call op next ih =>
    simp only [Prog.tryCatch, spec_call]
    exact and_congr_right fun _ => forall_congr' fun a => imp_congr_right fun _ => ih a

theorem Spec.bind {f : α → Prog Ans β} {Q' : List (Event Ans) → Exit β → Prop} {p : Prog Ans α}
    (hp : Spec P h p Q) (hf : ∀ h' e, Q h' e → andThen f P Q' h' e) : Spec P h (p >>= f) Q' :=
  spec_bind.mpr (hp.mono hf)

theorem spec_ask {f : Ans op → Prog Ans β} {Q : List (Event Ans) → Exit β → Prop} :
    Spec P h (Prog.ask op >>= f) Q ↔
      P.guar h op ∧ ∀ a, P.rely ⟨op, a⟩ → Spec P (h ++ [⟨op, a⟩]) (f a) Q := Iff.rfl

theorem Spec.ask {f : Ans op → Prog Ans β} {Q : List (Event Ans) → Exit β → Prop}
    (hf : ∀ a, Spec .any (h ++ [⟨op, a⟩]) (f a) Q) : Spec .any h (Prog.ask op >>= f) Q := .call hf

-- ---------------------------------------------------------------------------
-- Soundness
-- ---------------------------------------------------------------------------

theorem Spec.steps {p q : Prog Ans α} (hp : Spec P h p Q) (hs : Steps p tr q)
    (hr : ∀ ev ∈ tr, P.rely ev) : Spec P (h ++ tr) q Q := by
  induction hs generalizing h with
  | refl => simpa using hp
  | call a _ ih =>
    have := ih (hp.2 a (hr _ (by simp))) fun ev hev => hr ev (by simp [hev])
    simpa using this

theorem Spec.runs {p : Prog Ans α} (hp : Spec P [] p Q) (hs : Runs p tr e)
    (hr : ∀ ev ∈ tr, P.rely ev) : Q tr e := by
  simpa using hp.steps hs hr

theorem Spec.guar_snoc {p : Prog Ans α} (hp : Spec P h p Q)
    (hs : Steps p (tr ++ ⟨op, a⟩ :: tr') q) (hr : ∀ ev ∈ tr, P.rely ev) : P.guar (h ++ tr) op := by
  induction tr generalizing h p with
  | nil =>
    cases hs with
    | call => simpa using hp.1
  | cons ev tr ih =>
    cases hs with
    | call a hs =>
      have := ih (hp.2 a (hr _ (by simp))) hs fun ev hev => hr ev (by simp [hev])
      simpa using this

theorem Spec.asks {p : Prog Ans α} (hp : Spec P [] p Q)
    (hs : Steps p (tr ++ ⟨op, a⟩ :: tr') q) (hr : ∀ ev ∈ tr, P.rely ev) : P.guar tr op := by
  simpa using hp.guar_snoc hs hr

theorem Spec.ends {p : Prog Ans α} (hp : Spec .any [] p Q) (hs : Runs p tr e) : Q tr e :=
  hp.runs hs fun _ _ => trivial

/-- The strongest postcondition: some run led to the end. -/
theorem spec_run (p : Prog Ans α) :
    Spec .any h p fun h' e => ∃ tr, h' = h ++ tr ∧ Runs p tr e := by
  induction p generalizing h with
  | done e => exact ⟨[], by simp, .refl⟩
  | call op next ih =>
    refine .call fun a => (ih a).mono ?_
    rintro h' e ⟨tr, rfl, hr⟩
    exact ⟨⟨op, a⟩ :: tr, by simp, .call a hr⟩

def Returns (R : List (Event Ans) → α → Prop) (tr : List (Event Ans)) : Exit α → Prop
  | .ret a => R tr a
  | _ => False

theorem Returns.exists (h : Returns R tr e) : ∃ a, e = .ret a ∧ R tr a := by
  cases e with
  | ret a => exact ⟨a, rfl, h⟩
  | threw w => exact h.elim
  | undef u => exact h.elim

-- ---------------------------------------------------------------------------
-- From whole runs back to questions
-- ---------------------------------------------------------------------------

def Guarded (guar : List (Event Ans) → Op → Prop) : List (Event Ans) → List (Event Ans) → Prop
  | _, [] => True
  | h, ev :: tr => guar h ev.op ∧ Guarded guar (h ++ [ev]) tr

theorem guarded_append {guar : List (Event Ans) → Op → Prop} {h tr tr' : List (Event Ans)} :
    Guarded guar h (tr ++ tr') ↔ Guarded guar h tr ∧ Guarded guar (h ++ tr) tr' := by
  induction tr generalizing h with
  | nil => simp [Guarded]
  | cons ev tr ih => simp [Guarded, ih, and_assoc]

theorem Guarded.mono {guar guar' : List (Event Ans) → Op → Prop}
    (hg : ∀ h op, guar h op → guar' h op) (ht : Guarded guar h tr) : Guarded guar' h tr := by
  induction tr generalizing h with
  | nil => trivial
  | cons ev tr ih => exact ⟨hg _ _ ht.1, ih ht.2⟩

theorem guarded_of_forall {guar : List (Event Ans) → Op → Prop}
    (hg : ∀ ev ∈ tr, ∀ h', guar (h ++ h') ev.op) : Guarded guar h tr := by
  induction tr generalizing h with
  | nil => trivial
  | cons ev tr ih =>
    refine ⟨by simpa using hg ev (by simp) [], ih fun ev' hev h' => ?_⟩
    simpa using hg ev' (by simp [hev]) (ev :: h')

theorem exists_runs (hans : ∀ op, ∃ a, P.rely ⟨op, a⟩) (p : Prog Ans α) :
    ∃ tr e, Runs p tr e ∧ ∀ ev ∈ tr, P.rely ev := by
  induction p with
  | done e => exact ⟨[], e, .refl, by simp⟩
  | call op next ih =>
    obtain ⟨a, ha⟩ := hans op
    obtain ⟨tr, e, htr, hev⟩ := ih a
    exact ⟨⟨op, a⟩ :: tr, e, .call a htr, by simpa [ha] using hev⟩

/-- If all complete runs of a program are guarded, it is guarded at every point, since a
partial run can be completed. -/
theorem Spec.of_runs {p : Prog Ans α} (hans : ∀ op, ∃ a, P.rely ⟨op, a⟩)
    (hr : ∀ tr e, Runs p tr e → (∀ ev ∈ tr, P.rely ev) → Guarded P.guar h tr ∧ Q (h ++ tr) e) :
    Spec P h p Q := by
  induction p generalizing h with
  | done e => simpa using (hr [] e .refl (by simp)).2
  | call op next ih =>
    refine ⟨?_, fun a ha => ih a fun tr e htr hev => ?_⟩
    · obtain ⟨a, ha⟩ := hans op
      obtain ⟨tr, e, htr, hev⟩ := exists_runs hans (next a)
      exact (hr _ e (.call a htr) (by simpa [ha] using hev)).1.1
    · have := hr _ e (.call a htr) (by simpa [ha] using hev)
      exact ⟨this.1.2, by simpa using this.2⟩

-- ---------------------------------------------------------------------------
-- What is read from a trace
-- ---------------------------------------------------------------------------

theorem filterMap_cons_toList (f : Event Ans → Option β) (ev : Event Ans)
    (tr : List (Event Ans)) : (ev :: tr).filterMap f = (f ev).toList ++ tr.filterMap f := by
  rw [List.filterMap_cons]
  cases f ev <;> rfl

/-- Nothing is read from a trace whose operations all satisfy `P`. -/
theorem filterMap_of_ops {P : Op → Prop} {f : Event Ans → Option β} {tr : List (Event Ans)}
    (hf : ∀ op a, P op → f ⟨op, a⟩ = none) (h : ∀ ev ∈ tr, P ev.op) : tr.filterMap f = [] :=
  List.filterMap_eq_nil_iff.mpr fun ev hev => hf ev.op ev.ans (h ev hev)

-- ---------------------------------------------------------------------------
-- A program inside a larger one
-- ---------------------------------------------------------------------------

variable {Op' : Type} {Ans' : Op' → Type} {φ : Op → Op'} {back : ∀ op, Ans' (φ op) → Ans op}

def Prog.lift (φ : Op → Op') (back : ∀ op, Ans' (φ op) → Ans op) : Prog Ans α → Prog Ans' α
  | .done e => .done e
  | .call op next => .call (φ op) fun a => (next (back op a)).lift φ back

/-- A run of the lifted program is a run of the program. -/
theorem spec_lift {pull : Event Ans' → Option (Event Ans)}
    (hpull : ∀ op a, pull ⟨φ op, a⟩ = some ⟨op, back op a⟩) (p : Prog Ans α)
    {h : List (Event Ans')} : Spec .any h (p.lift φ back) fun h' e => ∃ tr, h' = h ++ tr ∧
      Runs p (tr.filterMap pull) e ∧ ∀ ev ∈ tr, ∃ op, ev.op = φ op := by
  induction p generalizing h with
  | done e => exact ⟨[], by simp, .refl, by simp⟩
  | call op next ih =>
    refine .call fun a => (ih (back op a)).mono ?_
    rintro h' e ⟨tr, rfl, hrun, hall⟩
    refine ⟨⟨φ op, a⟩ :: tr, by simp, ?_, ?_⟩
    · rw [List.filterMap_cons_some (hpull op a)]
      exact .call (back op a) hrun
    · rw [List.forall_mem_cons]
      exact ⟨⟨op, rfl⟩, hall⟩

end Interact
