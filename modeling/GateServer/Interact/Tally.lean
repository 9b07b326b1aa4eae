import GateServer.Interact.Interleave
import Mathlib.Algebra.BigOperators.Ring.List
import Mathlib.Algebra.Order.BigOperators.Group.List
import Mathlib.Algebra.Order.Group.Nat
import Mathlib.Algebra.Ring.Nat

/-!
# Counting events

How often an event has happened, in one history and in all of them together. A number of
the world that each step changes by what its event counts for is that count.
-/

namespace Interact

variable {Op : Type} {Ans : Op → Type} {ι α W : Type}

def tally (f : Event Ans → Nat) (h : List (Event Ans)) : Nat := (h.map f).sum

def Config.tally (f : Event Ans → Nat) (c : Config Ans ι α W) : Nat :=
  (c.threads.map fun t => Interact.tally f t.hist).sum

variable {f g : Event Ans → Nat}

@[simp] theorem tally_nil : tally f [] = 0 := rfl

@[simp] theorem tally_cons (ev : Event Ans) (h : List (Event Ans)) :
    tally f (ev :: h) = f ev + tally f h := by
  simp [tally]

@[simp] theorem tally_append (h h' : List (Event Ans)) :
    tally f (h ++ h') = tally f h + tally f h' := by
  simp [tally]

theorem exists_of_tally_pos (hpos : 0 < tally f h) : ∃ ev ∈ h, 0 < f ev := by
  induction h with
  | nil => exact absurd hpos (Nat.lt_irrefl 0)
  | cons ev h ih =>
    rw [tally_cons] at hpos
    cases hev : f ev with
    | zero =>
      obtain ⟨ev', hmem, hev'⟩ := ih (by omega)
      exact ⟨ev', List.mem_cons_of_mem ev hmem, hev'⟩
    | succ n => exact ⟨ev, List.mem_cons_self, by omega⟩

theorem tally_le_tally (hle : ∀ ev, f ev ≤ g ev) (h : List (Event Ans)) :
    tally f h ≤ tally g h := by
  induction h with
  | nil => exact Nat.le_refl 0
  | cons ev h ih =>
    rw [tally_cons, tally_cons]
    exact Nat.add_le_add (hle ev) ih

theorem le_tally (hev : ev ∈ h) : f ev ≤ tally f h :=
  List.single_le_sum (fun _ _ => Nat.zero_le _) _ (List.mem_map_of_mem hev)

variable {c : Config Ans ι α W}

theorem tally_le_all (f : Event Ans → Nat) (ht : t ∈ c.threads) : tally f t.hist ≤ c.tally f :=
  List.single_le_sum (fun _ _ => Nat.zero_le _) _ (List.mem_map.mpr ⟨t, ht, rfl⟩)

theorem exists_of_all_pos (hpos : 0 < c.tally f) : ∃ t ∈ c.threads, 0 < tally f t.hist := by
  by_contra hnone
  push Not at hnone
  have hzero : c.tally f = 0 := by
    refine List.sum_eq_zero fun n hn => ?_
    obtain ⟨t, ht, rfl⟩ := List.mem_map.mp hn
    exact Nat.le_zero.mp (hnone t ht)
  omega

theorem all_le_mul (n : Nat) (hle : ∀ t ∈ c.threads, tally f t.hist ≤ n * tally g t.hist) :
    c.tally f ≤ n * c.tally g := by
  rw [Config.tally, Config.tally, ← List.sum_map_mul_left]
  exact List.sum_le_sum hle

theorem all_lt_all (hle : ∀ t ∈ c.threads, tally f t.hist ≤ tally g t.hist) (ht : t ∈ c.threads)
    (hlt : tally f t.hist < tally g t.hist) : c.tally f < c.tally g :=
  List.sum_lt_sum _ _ hle ⟨t, ht, hlt⟩

variable {A : Arena Ans W} {prog : ι → Prog Ans α} {n : W → Nat}

theorem Reachable.tally (hact : ∀ w ev w', A.act w ev w' → n w' = n w + f ev)
    (henv : ∀ w w', A.env w w' → n w' = n w) (hr : Reachable A (.start prog w jobs) c) :
    n c.world = n w + c.tally f := by
  induction hr with
  | start =>
    have hzero : (Config.start prog w jobs).tally f = 0 := by
      refine List.sum_eq_zero fun n hn => ?_
      obtain ⟨t, ht, rfl⟩ := List.mem_map.mp hn
      obtain ⟨i, -, rfl⟩ := List.mem_map.mp ht
      rfl
    rw [hzero]
    rfl
  | step _ hs ih =>
    cases hs with
    | env h => exact (henv _ _ h).trans ih
    | call h =>
      dsimp only at ih ⊢
      rw [hact _ _ _ h, ih]
      simp only [Config.tally, List.map_append, List.map_cons, List.sum_append, List.sum_cons,
        tally_append, tally_cons, tally_nil]
      omega

end Interact
