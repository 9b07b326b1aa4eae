import GateServer.Interact.Interleave
import GateServer.Interact.Monitor

/-!
# Operations refined by steps

The code of an operation takes many steps at a monitor, and an arena performs the
operation at once. A refinement names the step at which that is: each step either leaves
the abstract view unchanged or has the effect of one event.
-/

namespace Interact

variable {Op : Type} {Ans : Op → Type} {W S L Cv : Type}

inductive Effect (Ans : Op → Type)
  | none
  | act (ev : Event Ans)
  | env

def Effect.events : Effect Ans → List (Event Ans)
  | .act ev => [ev]
  | .none | .env => []

def Arena.Makes (A : Arena Ans W) : Effect Ans → W → W → Prop
  | .none, w, w' => w' = w
  | .act ev, w, w' => A.act w ev w'
  | .env, w, w' => A.env w w'

inductive Arena.Run (A : Arena Ans W) (w₀ : W) : List (Event Ans) → W → Prop
  | start : Run A w₀ [] w₀
  | act : Run A w₀ tr w → A.act w ev w' → Run A w₀ (tr ++ [ev]) w'
  | env : Run A w₀ tr w → A.env w w' → Run A w₀ tr w'

theorem Arena.Run.makes_events {A : Arena Ans W} (h : A.Run w₀ tr w) (he : A.Makes e w w') :
    A.Run w₀ (tr ++ e.events) w' := by
  cases e with
  | none =>
    cases he
    rwa [Effect.events, List.append_nil]
  | act ev => exact h.act he
  | env =>
    rw [Effect.events, List.append_nil]
    exact h.env he

namespace Machine

variable [DecidableEq Cv] {M : Machine S L Cv} {A : Arena Ans W}
  {effect : S → L → L → Effect Ans} {view : Monitor S L → W} {Ok : Monitor S L → L → L → Prop}

structure Refines (M : Machine S L Cv) (A : Arena Ans W) (Ok : Monitor S L → L → L → Prop)
    (effect : S → L → L → Effect Ans) (view : Monitor S L → W) (c₀ : Monitor S L) : Prop where
  step : M.Reachable Ok c₀ c → M.Step c l l' c' →
    A.Makes (effect c.shared l l') (view c) (view c')

inductive Traced (M : Machine S L Cv) (effect : S → L → L → Effect Ans)
    (Ok : Monitor S L → L → L → Prop) (c₀ : Monitor S L) : List (Event Ans) → Monitor S L → Prop
  | start : Traced M effect Ok c₀ [] c₀
  | step : Traced M effect Ok c₀ tr c → Ok c l l' → M.Step c l l' c' →
      Traced M effect Ok c₀ (tr ++ (effect c.shared l l').events) c'

theorem Traced.reachable (h : M.Traced effect Ok c₀ tr c) : M.Reachable Ok c₀ c := by
  induction h with
  | start => exact .start
  | step _ hok hs ih => exact ih.step hok hs

theorem Traced.moves (ts us : List L) (ht : M.Traced effect Ok c₀ tr ⟨s, ts ++ l :: us⟩)
    (hn : M.next s l sig s' l') (hw : M.Wakes sig (ts ++ l' :: us) ts')
    (hok : Ok ⟨s, ts ++ l :: us⟩ l l') :
    M.Traced effect Ok c₀ (tr ++ (effect s l l').events) ⟨s', ts'⟩ :=
  ht.step hok (.mk hn hw)

theorem Traced.quiet (ts us : List L) (ht : M.Traced effect Ok c₀ tr ⟨s, ts ++ l :: us⟩)
    (hn : M.next s l .quiet s' l') (hok : Ok ⟨s, ts ++ l :: us⟩ l l') :
    M.Traced effect Ok c₀ (tr ++ (effect s l l').events) ⟨s', ts ++ l' :: us⟩ :=
  ht.moves ts us hn .quiet hok

inductive Trail (M : Machine S L Cv) (effect : S → L → L → Effect Ans) :
    S → L → List (Event Ans) → S → L → Prop
  | refl : Trail M effect s l [] s l
  | step : M.next s l .quiet s' l' → Trail M effect s' l' tr s'' l'' →
      Trail M effect s l ((effect s l l').events ++ tr) s'' l''

theorem Traced.trail (ts us : List L) (ht : M.Traced effect Ok c₀ tr ⟨s, ts ++ l :: us⟩)
    (hp : M.Trail effect s l tr' s' l') (hok : ∀ s l l', Ok ⟨s, ts ++ l :: us⟩ l l') :
    M.Traced effect Ok c₀ (tr ++ tr') ⟨s', ts ++ l' :: us⟩ := by
  induction hp generalizing tr with
  | refl => rwa [List.append_nil]
  | step hn _ ih =>
    rw [← List.append_assoc]
    exact ih (ht.quiet ts us hn (hok ..))

theorem Refines.traced (h : M.Refines A Ok effect view c₀) (ht : M.Traced effect Ok c₀ tr c) :
    A.Run (view c₀) tr (view c) := by
  induction ht with
  | start => exact .start
  | step ht _ hs ih => exact ih.makes_events (h.step ht.reachable hs)

end Machine
end Interact
