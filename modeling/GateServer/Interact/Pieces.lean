import Mathlib.Data.List.TakeWhile

/-!
# Loops over the pieces of a text

Such a loop finds the next separator, passes what precedes it to its body, and erases
both. It computes a fold over the pieces of the text, and ends after as many rounds as
there are separators.
-/

namespace Interact.Pieces

variable {α σ : Type} [DecidableEq α] {sep : α}

theorem idxOf?_split {text : List α} (h : text.idxOf? sep = some pos) :
    sep ∉ text.take pos ∧ text = text.take pos ++ sep :: text.drop (pos + 1) := by
  induction text generalizing pos with
  | nil => simp at h
  | cons a rest ih =>
    rw [List.idxOf?_cons] at h
    by_cases ha : a = sep
    · subst ha
      obtain rfl : 0 = pos := by simpa using h
      simp
    · obtain ⟨n, hn, rfl⟩ : ∃ n, rest.idxOf? sep = some n ∧ n + 1 = pos := by
        simpa [ha] using h
      obtain ⟨hnot, heq⟩ := ih hn
      refine ⟨by simp [hnot, Ne.symm ha], ?_⟩
      simpa using heq

theorem idxOf?_none {text : List α} (h : text.idxOf? sep = none) : sep ∉ text :=
  List.idxOf?_eq_none_iff.mp h

theorem ne_of_not_mem {x : List α} (h : sep ∉ x) : ∀ a ∈ x, (a != sep) = true := by
  intro a ha
  rw [bne_iff_ne]
  rintro rfl
  exact h ha

theorem span_cons {x y : List α} (h : sep ∉ x) :
    (x ++ sep :: y).takeWhile (· != sep) = x ∧
      (x ++ sep :: y).dropWhile (· != sep) = sep :: y := by
  rw [List.takeWhile_append_of_pos (ne_of_not_mem h),
    List.dropWhile_append_of_pos (ne_of_not_mem h)]
  simp

theorem span_all {x : List α} (h : sep ∉ x) :
    x.takeWhile (· != sep) = x ∧ x.dropWhile (· != sep) = [] :=
  ⟨List.takeWhile_eq_self_iff.mpr (ne_of_not_mem h),
    List.dropWhile_eq_nil_iff.mpr (ne_of_not_mem h)⟩

theorem length_splitOn (text : List α) : (text.splitOn sep).length = text.count sep + 1 := by
  induction text with
  | nil => rfl
  | cons a rest ih =>
    rw [List.splitOn_cons_eq_if_modifyHead, List.count_cons]
    by_cases ha : (a == sep) = true
    · rw [if_pos ha, if_pos ha, List.length_cons, ih]
    · rw [if_neg ha, if_neg ha, List.length_modifyHead, ih]

-- ---------------------------------------------------------------------------
-- The loop
-- ---------------------------------------------------------------------------

/-- The loop, with `fuel` as a bound on its rounds, and the rest of the text. -/
def eat (sep : α) (body : σ → List α → σ) : Nat → List α → σ → Option (List α × σ)
  | 0, _, _ => none
  | fuel + 1, text, s =>
    match text.idxOf? sep with
    | none => some (text, s)
    | some pos => eat sep body fuel (text.drop (pos + 1)) (body s (text.take pos))

variable {body : σ → List α → σ}

theorem eat_pieces {fuel : Nat} {text : List α} {s : σ} (h : text.count sep < fuel) :
    ∃ rest s', eat sep body fuel text s = some (rest, s') ∧
      body s' rest = (text.splitOn sep).foldl body s := by
  induction fuel generalizing text s with
  | zero => exact absurd h (Nat.not_lt_zero _)
  | succ fuel ih =>
    unfold eat
    cases hpos : text.idxOf? sep with
    | none =>
      refine ⟨text, s, rfl, ?_⟩
      rw [List.splitOn_eq_singleton (idxOf?_none hpos)]
      rfl
    | some pos =>
      obtain ⟨hnot, heq⟩ := idxOf?_split hpos
      have hcount : text.count sep = (text.drop (pos + 1)).count sep + 1 := by
        apply (congrArg (List.count sep) heq).trans
        simp [List.count_eq_zero.mpr hnot]
      have hpieces : text.splitOn sep = text.take pos :: (text.drop (pos + 1)).splitOn sep :=
        (congrArg (List.splitOn sep) heq).trans (List.splitOn_append_cons_self_of_not_mem hnot _)
      obtain ⟨rest, s', hrun, hfold⟩ :=
        ih (s := body s (text.take pos)) (Nat.lt_of_succ_lt_succ (hcount ▸ h))
      refine ⟨rest, s', hrun, ?_⟩
      rw [hpieces]
      exact hfold

end Interact.Pieces
