import GateServer.Interact.Monitor

/-!
# One thread in several roles

A thread that calls, one after the other, what a machine has two threads for is modelled
by a machine of its own. It is expanded to the threads that it stands for: each of its
steps is a step of one of them, or no step of the smaller machine.
-/

namespace Interact.Machine

variable {S S' L L' Cv : Type} [DecidableEq Cv]

structure Expansion (M' : Machine S' L' Cv) (M : Machine S L Cv) (φ : S' → S)
    (expand : L' → List L) : Prop where
  next : M'.next s l sig s' l' →
    (∃ before p p' after, expand l = before ++ p :: after ∧ expand l' = before ++ p' :: after ∧
      M.next (φ s) p sig (φ s') p') ∨ (sig = .quiet ∧ φ s' = φ s ∧ expand l' = expand l)
  parked : ∀ l, (M'.parked l = none ∧ ∀ p ∈ expand l, M.parked p = none) ∨
    ∃ before p after cv, expand l = before ++ p :: after ∧ M'.parked l = some cv ∧
      M.parked p = some cv ∧ expand (M'.woken l) = before ++ M.woken p :: after ∧
      ∀ q ∈ before ++ after, M.parked q = none

variable {M' : Machine S' L' Cv} {M : Machine S L Cv} {φ : S' → S} {expand : L' → List L}
  {Ok : Monitor S' L' → L' → L' → Prop}

def expanded (φ : S' → S) (expand : L' → List L) (c : Monitor S' L') : Monitor S L :=
  ⟨φ c.shared, c.threads.flatMap expand⟩

theorem wake_unparked {ps : List L} (h : ∀ q ∈ ps, M.parked q = none) (cv : Cv) :
    ps.map (M.wake cv) = ps := by
  refine (List.map_congr_left fun q hq => ?_).trans (List.map_id ps)
  rw [wake, h q hq]
  exact if_neg (Option.some_ne_none cv).symm

theorem Expansion.wake (h : Expansion M' M φ expand) (cv : Cv) (l : L') :
    expand (M'.wake cv l) = (expand l).map (M.wake cv) := by
  obtain ⟨hnone, hps⟩ | ⟨before, p, after, cv', hl, hpark, hp, hwoken, hothers⟩ := h.parked l
  · rw [wake_unparked hps, Machine.wake, hnone, if_neg (Option.some_ne_none cv).symm]
  · have hbefore := wake_unparked (fun q hq => hothers q (List.mem_append_left _ hq)) cv
    have hafter := wake_unparked (fun q hq => hothers q (List.mem_append_right _ hq)) cv
    rw [hl, List.map_append, List.map_cons, hbefore, hafter, Machine.wake, Machine.wake, hpark, hp]
    split
    · exact hwoken
    · exact hl

theorem Expansion.wakes (h : Expansion M' M φ expand) (hw : M'.Wakes sig ts ts') :
    M.Wakes sig (ts.flatMap expand) (ts'.flatMap expand) := by
  cases hw with
  | quiet => exact .quiet
  | @one l cv us vs hpark =>
    obtain ⟨hnone, -⟩ | ⟨before, p, after, cv', hl, hpark', hp, hwoken, -⟩ := h.parked l
    · cases hnone.symm.trans hpark
    · obtain rfl : cv' = cv := Option.some.inj (hpark'.symm.trans hpark)
      simp only [List.flatMap_append, List.flatMap_cons, hl, hwoken, List.append_assoc,
        List.cons_append]
      rw [← List.append_assoc, ← List.append_assoc]
      exact .one hp
  | nobody hnone =>
    refine .nobody fun p hp hpark => ?_
    obtain ⟨l, hmem, hpl⟩ := List.mem_flatMap.mp hp
    obtain ⟨-, hps⟩ | ⟨before, q, after, cv', hl, hpark', hq, -, hothers⟩ := h.parked l
    · cases (hps p hpl).symm.trans hpark
    · rw [hl, List.mem_append, List.mem_cons] at hpl
      obtain hpl | rfl | hpl := hpl
      · cases (hothers p (List.mem_append_left _ hpl)).symm.trans hpark
      · exact hnone l hmem (hpark'.trans (hq.symm.trans hpark))
      · cases (hothers p (List.mem_append_right _ hpl)).symm.trans hpark
  | all =>
    rw [List.flatMap_map, funext (h.wake _), ← List.map_flatMap]
    exact .all

theorem Expansion.step (h : Expansion M' M φ expand) (hs : M'.Step c l l' c') :
    (∃ p p', M.Step (expanded φ expand c) p p' (expanded φ expand c')) ∨
      expanded φ expand c' = expanded φ expand c := by
  obtain ⟨ts, us, sig, hts, hn, hw⟩ := hs.inv
  have hwakes := h.wakes hw
  rw [List.flatMap_append, List.flatMap_cons] at hwakes
  unfold expanded
  rw [hts, List.flatMap_append, List.flatMap_cons]
  obtain ⟨before, p, p', after, hl, hl', hnext⟩ | ⟨rfl, hshared, hl⟩ := h.next hn
  · rw [hl'] at hwakes
    refine .inl ⟨p, p', ?_⟩
    simp only [hl, List.append_assoc, List.cons_append] at hwakes ⊢
    rw [← List.append_assoc] at hwakes ⊢
    exact .mk hnext hwakes
  · rw [hl] at hwakes
    exact .inr (by rw [hshared, hwakes.quiet_eq])

theorem Expansion.reachable (h : Expansion M' M φ expand) (hr : M'.Reachable Ok c₀ c) :
    M.Reachable Any (expanded φ expand c₀) (expanded φ expand c) := by
  induction hr with
  | start => exact .start
  | step _ _ hs ih =>
    obtain ⟨p, p', hstep⟩ | heq := h.step hs
    · exact ih.step trivial hstep
    · exact heq ▸ ih

end Interact.Machine
