import GateServer.Interact.Lending

/-!
# Runs made of parts

A run settles if its parts do, and if each part gives back no more than it takes, it
settles only then.
-/

namespace Interact

variable {Op : Type} {Ans : Op → Type} {C : Type} [DecidableEq C] {mv : Event Ans → Move C}
  {Good : Event Ans → Prop} {tr tr' : List (Event Ans)}

structure Judged (Good : Event Ans → Prop) (mv : Event Ans → Move C) (tr : List (Event Ans)) :
    Prop where
  le : givenBack mv tr ≤ taken mv tr
  iff : Settles mv tr ↔ ∀ ev ∈ tr, Good ev

theorem GaveBack.held_append (h : GaveBack mv tr) (h' : List (Event Ans)) :
    held mv (tr ++ h') = held mv h' := by
  rw [held, taken_append, givenBack_append, h, add_tsub_add_eq_tsub_left, held]

theorem GaveBack.guarded (h : GaveBack mv tr) (h' : List (Event Ans)) :
    Guarded (GivesHeld mv) (tr ++ h') tr' ↔ Guarded (GivesHeld mv) h' tr' := by
  induction tr' generalizing h' with
  | nil => exact Iff.rfl
  | cons ev rest ih =>
    have hrest := ih (h' ++ [ev])
    rw [← List.append_assoc] at hrest
    refine and_congr ?_ hrest
    rw [GivesHeld, GivesHeld, h.held_append]

theorem Settles.append (h : Settles mv tr) (h' : Settles mv tr') : Settles mv (tr ++ tr') := by
  have hguarded : Guarded (GivesHeld mv) ([] ++ tr) tr' := by
    have hafter := (h.2.guarded []).mpr h'.1
    rwa [List.append_nil] at hafter
  refine ⟨guarded_append.mpr ⟨h.1, hguarded⟩, ?_⟩
  rw [GaveBack, givenBack_append, taken_append, h.2, h'.2]

/-- A part cannot give back what another part keeps. -/
theorem Settles.parts (h : Settles mv (tr ++ tr')) (hle : givenBack mv tr ≤ taken mv tr)
    (hle' : givenBack mv tr' ≤ taken mv tr') : Settles mv tr ∧ Settles mv tr' := by
  obtain ⟨hguarded, hback⟩ := h
  rw [GaveBack, givenBack_append, taken_append] at hback
  have hfirst : GaveBack mv tr :=
    le_antisymm hle (le_of_add_le_add_right (hback.symm.le.trans (add_le_add_right hle' _)))
  have hsecond : GaveBack mv tr' := by
    rw [hfirst] at hback
    exact add_left_cancel hback
  obtain ⟨hg, hg'⟩ := guarded_append.mp hguarded
  refine ⟨⟨hg, hfirst⟩, (hfirst.guarded []).mp ?_, hsecond⟩
  rwa [List.append_nil]

theorem Judged.append (h : Judged Good mv tr) (h' : Judged Good mv tr') :
    Judged Good mv (tr ++ tr') where
  le := by
    rw [givenBack_append, taken_append]
    exact add_le_add h.le h'.le
  iff := by
    rw [List.forall_mem_append]
    constructor
    · intro hs
      obtain ⟨hfirst, hsecond⟩ := hs.parts h.le h'.le
      exact ⟨h.iff.mp hfirst, h'.iff.mp hsecond⟩
    · rintro ⟨hgood, hgood'⟩
      exact (h.iff.mpr hgood).append (h'.iff.mpr hgood')

theorem Judged.idle (h : Idles mv tr) (hgood : ∀ ev ∈ tr, Good ev) : Judged Good mv tr :=
  ⟨(h.givenBack.trans h.taken.symm).le, iff_of_true h.settles hgood⟩

end Interact
