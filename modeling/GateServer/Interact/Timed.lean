import Mathlib.Data.List.Count
import Mathlib.Order.Nat

/-!
# Things in time

A collection of things shares a clock. Each moves by itself, some moves create a new
thing, and time passes in between. A timer is set once, and any number of waits can be
begun on it: they are over when it expires or when they are cancelled.
-/

namespace Interact

-- ---------------------------------------------------------------------------
-- Crowds
-- ---------------------------------------------------------------------------

/-- The initial state of a thing, its moves, and which moves create another thing. -/
structure Kind (X L : Type) where
  born : Nat → X
  next : Nat → X → L → X → Prop
  bears : L → Bool

structure Crowd (X : Type) where
  now : Nat
  things : List X

namespace Kind

variable {X L : Type} (K : Kind X L)

def offspring (now : Nat) (l : L) : List X := if K.bears l then [K.born now] else []

inductive Step : Crowd X → Option (X × L) → Crowd X → Prop
  | pass : t ≤ t' → Step ⟨t, xs⟩ none ⟨t', xs⟩
  | move : K.next t x l x' →
      Step ⟨t, xs ++ x :: ys⟩ (some (x, l)) ⟨t, xs ++ x' :: (ys ++ K.offspring t l)⟩

inductive Reachable (Ok : Nat → X → L → Prop) (c₀ : Crowd X) : Crowd X → Prop
  | start : Reachable Ok c₀ c₀
  | step : Reachable Ok c₀ c → (∀ x l, who = some (x, l) → Ok c.now x l) → K.Step c who c' →
      Reachable Ok c₀ c'

abbrev Any : Nat → X → L → Prop := fun _ _ _ => True

def first (now : Nat) : Crowd X := ⟨now, [K.born now]⟩

variable {K} {Ok : Nat → X → L → Prop} {c₀ c c' : Crowd X}

theorem Reachable.pass (hr : K.Reachable Ok c₀ ⟨t, xs⟩) (h : t ≤ t') :
    K.Reachable Ok c₀ ⟨t', xs⟩ := by
  refine hr.step (fun x l hwho => ?_) (.pass h)
  cases hwho

theorem Reachable.move {ys : List X} (hr : K.Reachable Ok c₀ ⟨t, xs ++ x :: ys⟩)
    (h : K.next t x l x') (hok : Ok t x l) :
    K.Reachable Ok c₀ ⟨t, xs ++ x' :: (ys ++ K.offspring t l)⟩ := by
  refine hr.step (fun _ _ hwho => ?_) (.move h)
  cases hwho
  exact hok

/-- An invariant of each thing that its own moves and the passing of time preserve. -/
theorem Reachable.each {I : Nat → X → Prop} (hborn : ∀ t, I t (K.born t))
    (hpass : ∀ t t' x, t ≤ t' → I t x → I t' x)
    (hmove : ∀ t x l x', Ok t x l → K.next t x l x' → I t x → I t x')
    (h₀ : ∀ x ∈ c₀.things, I c₀.now x) (hr : K.Reachable Ok c₀ c) :
    ∀ x ∈ c.things, I c.now x := by
  induction hr with
  | start => exact h₀
  | step _ hok hs ih =>
    intro y hy
    cases hs with
    | pass h => exact hpass _ _ _ h (ih y hy)
    | @move t x l x' xs ys h =>
      rcases List.mem_append.mp hy with hy | hy
      · exact ih y (List.mem_append_left _ hy)
      rcases List.mem_cons.mp hy with rfl | hy
      · exact hmove t x l y (hok x l rfl) h (ih x (by simp))
      rcases List.mem_append.mp hy with hy | hy
      · exact ih y (List.mem_append_right _ (.tail _ hy))
      · unfold offspring at hy
        split at hy
        · cases List.mem_singleton.mp hy
          exact hborn t
        · cases hy

theorem Step.countP (p : X → Bool) (hs : K.Step c (some (x, l)) c') :
    ∃ x', K.next c.now x l x' ∧ x ∈ c.things ∧ c'.things.countP p + (p x).toNat =
      c.things.countP p + (p x').toNat + (K.offspring c.now l).countP p := by
  cases hs with
  | @move _ _ _ x' xs ys h =>
    refine ⟨x', h, by simp, ?_⟩
    cases hx : p x <;> cases hx' : p x' <;> simp [List.countP_append, hx, hx'] <;> omega

end Kind

-- ---------------------------------------------------------------------------
-- Timers
-- ---------------------------------------------------------------------------

/-- A timer with the waits on it, each identified by the time it was begun: pending ones, and
expired ones whose handler has not run. -/
structure Timer where
  expiry : Nat
  waiting : List Nat
  due : List Nat
  deriving DecidableEq, Repr

namespace Timer

def set (expiry : Nat) : Timer := ⟨expiry, [], []⟩

def wait (timer : Timer) (now count : Nat) : Timer :=
  { timer with waiting := timer.waiting ++ .replicate count now }

/-- An expired wait is not cancelled. -/
def cancel (timer : Timer) : Timer := { timer with waiting := [] }

def expire (timer : Timer) : Timer :=
  { timer with waiting := [], due := timer.due ++ timer.waiting }

def run (timer : Timer) (begun : Nat) : Timer := { timer with due := timer.due.erase begun }

def begun (timer : Timer) : List Nat := timer.waiting ++ timer.due

@[simp] theorem begun_set (expiry : Nat) : (set expiry).begun = [] := rfl

theorem mem_begun_wait {timer : Timer} (h : b ∈ (timer.wait now count).begun) :
    b ∈ timer.begun ∨ b = now ∧ count ≠ 0 := by
  simp only [begun, wait, List.mem_append, List.mem_replicate] at h ⊢
  rcases h with (h | h) | h
  · exact .inl (.inl h)
  · exact .inr h.symm
  · exact .inl (.inr h)

theorem mem_begun_cancel {timer : Timer} (h : b ∈ timer.cancel.begun) : b ∈ timer.begun :=
  List.mem_append_right _ h

theorem mem_begun_expire {timer : Timer} : b ∈ timer.expire.begun ↔ b ∈ timer.begun := by
  simp [begun, expire, or_comm]

theorem mem_begun_run {timer : Timer} (h : b ∈ (timer.run b').begun) : b ∈ timer.begun := by
  rcases List.mem_append.mp h with h | h
  · exact List.mem_append_left _ h
  · exact List.mem_append_right _ (List.mem_of_mem_erase h)

structure Punctual (timer : Timer) (now : Nat) : Prop where
  begun : ∀ b ∈ timer.begun, b ≤ now
  due : timer.due ≠ [] → timer.expiry ≤ now

variable {timer : Timer}

theorem punctual_set (expiry now : Nat) : (set expiry).Punctual now :=
  ⟨by simp, fun h => absurd rfl h⟩

theorem Punctual.mono (h : timer.Punctual now) (hle : now ≤ now') : timer.Punctual now' :=
  ⟨fun b hb => (h.begun b hb).trans hle, fun hd => (h.due hd).trans hle⟩

theorem Punctual.wait (h : timer.Punctual now) (count : Nat) :
    (timer.wait now count).Punctual now := by
  refine ⟨fun b hb => ?_, h.due⟩
  rcases mem_begun_wait hb with hb | ⟨rfl, -⟩
  · exact h.begun b hb
  · exact le_rfl

theorem Punctual.cancel (h : timer.Punctual now) : timer.cancel.Punctual now :=
  ⟨fun b hb => h.begun b (mem_begun_cancel hb), h.due⟩

theorem Punctual.expire (h : timer.Punctual now) (hle : timer.expiry ≤ now) :
    timer.expire.Punctual now :=
  ⟨fun b hb => h.begun b (mem_begun_expire.mp hb), fun _ => hle⟩

theorem Punctual.run (h : timer.Punctual now) (b : Nat) : (timer.run b).Punctual now := by
  refine ⟨fun b' hb => h.begun b' (mem_begun_run hb), fun hd => h.due fun hnil => hd ?_⟩
  simp [Timer.run, hnil]

theorem Punctual.le (h : timer.Punctual now) (hb : b ∈ timer.due) : max timer.expiry b ≤ now :=
  max_le (h.due (List.ne_nil_of_mem hb)) (h.begun b (List.mem_append_right _ hb))

end Timer
end Interact
