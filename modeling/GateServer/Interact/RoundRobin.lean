import Mathlib.Data.Int.CardIntervalMod
import Mathlib.Data.List.Infix

/-!
# Round robin

`n` parties are served in a circle. In any window, no party is served two times more often
than another.
-/

namespace Interact.RoundRobin

variable {n start : Nat}

/-- Who is served in `len` turns, beginning with turn `start`. -/
def turns (n start len : Nat) : List Nat := (List.range' start len).map (· % n)

@[simp] theorem turns_zero (n start : Nat) : turns n start 0 = [] := rfl

@[simp] theorem length_turns (n start len : Nat) : (turns n start len).length = len := by
  simp [turns]

theorem turns_succ (n start len : Nat) :
    turns n start (len + 1) = start % n :: turns n (start + 1) len := by
  rw [turns, List.range'_succ, List.map_cons]
  rfl

theorem turns_append (n start first second : Nat) :
    turns n start first ++ turns n (start + first) second = turns n start (first + second) := by
  rw [turns, turns, ← List.map_append, List.range'_append_1]
  rfl

theorem turns_mod (n start len : Nat) : turns n (start % n) len = turns n start len := by
  induction len generalizing start with
  | zero => rfl
  | succ len ih =>
    have hnext : turns n (start % n + 1) len = turns n (start + 1) len := by
      rw [← ih (start % n + 1), ← ih (start + 1), Nat.mod_add_mod]
    rw [turns_succ, turns_succ, Nat.mod_mod, hnext]

theorem lt_of_mem_turns (hn : 0 < n) (h : i ∈ turns n start len) : i < n := by
  obtain ⟨turn, -, rfl⟩ := List.mem_map.mp h
  exact Nat.mod_lt turn hn

theorem turns_of_infix {window : List Nat} (h : window <:+: turns n start len) :
    ∃ later, window = turns n later window.length := by
  obtain ⟨before, after, heq⟩ := h
  have hlen : len = before.length + (window.length + after.length) := by
    rw [← length_turns n start len, ← heq]
    simp only [List.length_append, Nat.add_assoc]
  rw [hlen, ← turns_append, ← turns_append, List.append_assoc] at heq
  obtain ⟨-, hrest⟩ := List.append_inj heq (length_turns ..).symm
  exact ⟨_, (List.append_inj hrest (length_turns ..).symm).1⟩

/-- Each party is served once a round, and once more if the last, incomplete round has reached
it. -/
theorem count_turns (hi : i < n) (len : Nat) :
    (turns n 0 len).count i = len / n + if i < len % n then 1 else 0 := by
  have hcount : (turns n 0 len).count i = Nat.count (· ≡ i [MOD n]) len := by
    induction len with
    | zero => rfl
    | succ len ih =>
      rw [← turns_append, List.count_append, ih, Nat.count_succ, Nat.zero_add, turns_succ,
        turns_zero, List.count_singleton]
      simp only [Nat.ModEq, Nat.mod_eq_of_lt hi, beq_iff_eq]
  rw [hcount, Nat.count_modEq_card _ (Nat.zero_lt_of_lt hi), Nat.mod_eq_of_lt hi]

theorem count_le_succ (hi : i < n) (hj : j < n) (start len : Nat) :
    (turns n start len).count i ≤ (turns n start len).count j + 1 := by
  have hall := turns_append n 0 start len
  rw [Nat.zero_add] at hall
  have hsum {k : Nat} (hk : k < n) :
      (start / n + if k < start % n then 1 else 0) + (turns n start len).count k =
        (start + len) / n + if k < (start + len) % n then 1 else 0 := by
    rw [← count_turns hk, ← count_turns hk, ← hall, List.count_append]
  have hsum_i := hsum hi
  have hsum_j := hsum hj
  -- the watch begins at one party and ends at another: only one side of each can be ahead
  split_ifs at hsum_i hsum_j <;> omega

theorem balanced {window : List Nat} (h : window <:+: turns n start len) (hi : i < n)
    (hj : j < n) : window.count i ≤ window.count j + 1 := by
  obtain ⟨later, heq⟩ := turns_of_infix h
  rw [heq]
  exact count_le_succ hi hj later window.length

end Interact.RoundRobin
