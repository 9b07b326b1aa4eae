import Mathlib.Data.List.Forall2
import GateServer.Interact.Program

/-!
# Programs side by side

Any number of programs take turns in one world, an operation at a time, and the world may
also move by itself. Each thread keeps the history of its own events, so that a property
of the runs of one program holds of each thread of any interleaving.
-/

namespace Interact

variable {Op : Type} {Ans : Op → Type} {ι α W : Type}

/-- How the world changes with an operation and its answer, and how it changes by itself. -/
structure Arena (Ans : Op → Type) (W : Type) where
  act : W → Event Ans → W → Prop
  env : W → W → Prop

/-- A program under way: its job, its history and what is left of it. -/
structure Thread (Ans : Op → Type) (ι α : Type) where
  job : ι
  hist : List (Event Ans)
  rest : Prog Ans α

def Thread.start (prog : ι → Prog Ans α) (i : ι) : Thread Ans ι α := ⟨i, [], prog i⟩

def Thread.Finished (t : Thread Ans ι α) : Prop := ∃ e, t.rest = .done e

structure Config (Ans : Op → Type) (ι α W : Type) where
  world : W
  threads : List (Thread Ans ι α)

def Config.start (prog : ι → Prog Ans α) (w : W) (jobs : List ι) : Config Ans ι α W :=
  ⟨w, jobs.map (Thread.start prog)⟩

/-- One step, labelled with the thread that moves and its event. -/
inductive Step (A : Arena Ans W) : Config Ans ι α W → Option (Thread Ans ι α × Event Ans) →
    Config Ans ι α W → Prop
  | call {next : Ans op → Prog Ans α} : A.act w ⟨op, a⟩ w' →
      Step A ⟨w, t ++ ⟨i, h, .call op next⟩ :: u⟩ (some (⟨i, h, .call op next⟩, ⟨op, a⟩))
        ⟨w', t ++ ⟨i, h ++ [⟨op, a⟩], next a⟩ :: u⟩
  | env : A.env w w' → Step A ⟨w, t⟩ none ⟨w', t⟩

inductive Reachable (A : Arena Ans W) (c₀ : Config Ans ι α W) : Config Ans ι α W → Prop
  | start : Reachable A c₀ c₀
  | step : Reachable A c₀ c → Step A c who c' → Reachable A c₀ c'

theorem forall₂_append_left {R : α → β → Prop} {xs ys : List α} {zs : List β}
    (h : List.Forall₂ R (xs ++ ys) zs) :
    ∃ xs' ys', zs = xs' ++ ys' ∧ List.Forall₂ R xs xs' ∧ List.Forall₂ R ys ys' := by
  induction xs generalizing zs with
  | nil => exact ⟨[], zs, rfl, .nil, h⟩
  | cons x xs ih =>
    cases h with
    | cons hx h =>
      obtain ⟨xs', ys', rfl, hxs, hys⟩ := ih h
      exact ⟨_ :: xs', ys', rfl, .cons hx hxs, hys⟩

variable {A : Arena Ans W} {prog : ι → Prog Ans α} {c c' : Config Ans ι α W}

theorem Step.threads (hs : Step A c who c') {t : Thread Ans ι α} (ht : t ∈ c'.threads) :
    t ∈ c.threads ∨ ∃ op a next h, t = ⟨t.job, h ++ [⟨op, a⟩], next a⟩ ∧
      ⟨t.job, h, .call op next⟩ ∈ c.threads ∧ who = some (⟨t.job, h, .call op next⟩, ⟨op, a⟩) := by
  cases hs with
  | env => exact .inl ht
  | call =>
    rcases List.mem_append.mp ht with ht | ht
    · exact .inl (List.mem_append_left _ ht)
    · rcases List.mem_cons.mp ht with rfl | ht
      · exact .inr ⟨_, _, _, _, rfl, by simp, rfl⟩
      · exact .inl (List.mem_append_right _ (List.mem_cons_of_mem _ ht))

theorem Step.mover_mem {t : Thread Ans ι α} (hs : Step A c (some (t, ev)) c') :
    t ∈ c.threads := by
  cases hs
  simp

theorem Step.hist (hs : Step A c who c') {t : Thread Ans ι α} (ht : t ∈ c.threads) :
    ∃ t' ∈ c'.threads, t'.job = t.job ∧ ∀ ev ∈ t.hist, ev ∈ t'.hist := by
  cases hs with
  | env => exact ⟨t, ht, rfl, fun _ h => h⟩
  | call =>
    rcases List.mem_append.mp ht with ht | ht
    · exact ⟨t, List.mem_append_left _ ht, rfl, fun _ h => h⟩
    · rcases List.mem_cons.mp ht with rfl | ht
      · exact ⟨_, List.mem_append_right _ (List.mem_cons_self ..), rfl,
          fun _ h => List.mem_append_left _ h⟩
      · exact ⟨t, List.mem_append_right _ (List.mem_cons_of_mem _ ht), rfl, fun _ h => h⟩

/-- Each thread of an interleaving is a run of its own program. -/
theorem Reachable.steps (hr : Reachable A (.start prog w jobs) c) :
    ∀ t ∈ c.threads, Steps (prog t.job) t.hist t.rest := by
  induction hr with
  | start =>
    intro t ht
    obtain ⟨i, -, rfl⟩ := List.mem_map.mp ht
    exact .refl
  | step _ hs ih =>
    intro t ht
    rcases hs.threads ht with ht | ⟨op, a, next, h, heq, ht, -⟩
    · exact ih t ht
    · rw [heq]
      exact (ih _ ht).snoc a

/-- An invariant of the world, and a property of the answers that it implies. -/
theorem Reachable.answers {I : W → Prop} {E : Event Ans → Prop} (h0 : I w)
    (hact : ∀ w ev w', I w → A.act w ev w' → I w' ∧ E ev)
    (henv : ∀ w w', I w → A.env w w' → I w') (hr : Reachable A (.start prog w jobs) c) :
    I c.world ∧ ∀ t ∈ c.threads, ∀ ev ∈ t.hist, E ev := by
  induction hr with
  | start =>
    refine ⟨h0, fun t ht => ?_⟩
    obtain ⟨i, -, rfl⟩ := List.mem_map.mp ht
    nofun
  | step hr hs ih =>
    obtain ⟨hworld, hhist⟩ := ih
    cases hs with
    | env he => exact ⟨henv _ _ hworld he, hhist⟩
    | @call op w a w' ts us i h next ha =>
      obtain ⟨hworld', hev⟩ := hact _ _ _ hworld ha
      refine ⟨hworld', fun t ht => ?_⟩
      have hold := hhist ⟨i, h, .call op next⟩ (by simp)
      rcases List.mem_append.mp ht with ht | ht
      · exact hhist t (List.mem_append_left _ ht)
      · rcases List.mem_cons.mp ht with rfl | ht
        · intro ev hmem
          rcases List.mem_append.mp hmem with hmem | hmem
          · exact hold ev hmem
          · cases List.mem_singleton.mp hmem
            exact hev
        · exact hhist t (List.mem_append_right _ (.tail _ ht))

theorem Reachable.all_answers {E : Event Ans → Prop} (hact : ∀ w ev w', A.act w ev w' → E ev)
    (hr : Reachable A (.start prog w jobs) c) : ∀ t ∈ c.threads, ∀ ev ∈ t.hist, E ev :=
  (hr.answers (I := fun _ => True) trivial (fun w ev w' _ h => ⟨trivial, hact w ev w' h⟩)
    fun _ _ _ _ => trivial).2

theorem Reachable.asks {P : ι → Protocol Ans} {Q : ι → List (Event Ans) → Exit α → Prop}
    (hp : ∀ i, Spec (P i) [] (prog i) (Q i)) (hr : Reachable A (.start prog w jobs) c)
    (hs : Step A c (some (t, ev)) c') (hrely : ∀ ev ∈ t.hist, (P t.job).rely ev) :
    (P t.job).guar t.hist ev.op := by
  cases hs with
  | @call op _ a _ _ _ i h next hact =>
    have hsteps := hr.steps ⟨i, h, .call op next⟩ (by simp)
    exact Spec.asks (hp i) (hsteps.snoc a) hrely

-- ---------------------------------------------------------------------------
-- Fewer steps
-- ---------------------------------------------------------------------------

def Arena.only (A : Arena Ans W) (Ok : W → Event Ans → Prop) : Arena Ans W where
  act w ev w' := A.act w ev w' ∧ Ok w ev
  env := A.env

theorem Step.of_only (hs : Step (A.only Ok) c who c') : Step A c who c' := by
  cases hs with
  | call h => exact .call h.1
  | env h => exact .env h

theorem Reachable.of_only (hr : Reachable (A.only Ok) c₀ c) : Reachable A c₀ c := by
  induction hr with
  | start => exact .start
  | step _ hs ih => exact ih.step hs.of_only

-- ---------------------------------------------------------------------------
-- One thread alone
-- ---------------------------------------------------------------------------

inductive Plays (A : Arena Ans W) : W → List (Event Ans) → W → Prop
  | nil : Plays A w [] w
  | cons : A.act w ev w' → Plays A w' tr w'' → Plays A w (ev :: tr) w''

/-- One thread runs while the others stand still. -/
theorem Reachable.goOn (ts us : List (Thread Ans ι α)) (hs : Steps p tr q) (hp : Plays A w tr w')
    (hr : Reachable A c₀ ⟨w, ts ++ ⟨i, h, p⟩ :: us⟩) :
    Reachable A c₀ ⟨w', ts ++ ⟨i, h ++ tr, q⟩ :: us⟩ := by
  induction hs generalizing w h with
  | refl =>
    cases hp
    rwa [List.append_nil]
  | call a _ ih =>
    cases hp with
    | cons hact hp =>
      have := ih hp (hr.step (.call hact))
      rwa [List.append_assoc] at this

/-- A run of one program in the world is an interleaving of that program alone. -/
theorem Reachable.alone (hs : Steps (prog i) tr q) (hp : Plays A w tr w') :
    Reachable A (.start prog w [i]) ⟨w', [⟨i, tr, q⟩]⟩ :=
  Reachable.goOn [] [] hs hp .start

end Interact
