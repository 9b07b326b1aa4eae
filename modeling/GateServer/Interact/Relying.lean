import GateServer.Interact.Interleave

/-!
# Mutual guarantees of the programs in an interleaving

A world keeps its invariant and answers accordingly as long as the operations it gets are
allowed. Programs that rely on such answers perform only allowed operations.
-/

namespace Interact

variable {Op : Type} {Ans : Op → Type} {ι α W : Type} {A : Arena Ans W} {prog : ι → Prog Ans α}
  {c : Config Ans ι α W} {P : Protocol Ans} {Q : ι → List (Event Ans) → Exit α → Prop}

theorem Reachable.relies {I : W → Prop} (hb : ∀ i, Spec P [] (prog i) (Q i)) (h0 : I w)
    (hact : ∀ w h op a w', I w → P.guar h op → A.act w ⟨op, a⟩ w' → I w' ∧ P.rely ⟨op, a⟩)
    (henv : ∀ w w', I w → A.env w w' → I w') (hr : Reachable A (.start prog w jobs) c) :
    I c.world ∧ ∀ t ∈ c.threads, ∀ ev ∈ t.hist, P.rely ev := by
  induction hr with
  | start =>
    refine ⟨h0, fun t ht => ?_⟩
    obtain ⟨i, -, rfl⟩ := List.mem_map.mp ht
    nofun
  | step hr hs ih =>
    obtain ⟨hworld, hhist⟩ := ih
    cases hs with
    | env he => exact ⟨henv _ _ hworld he, hhist⟩
    | @call op w a w' ts us i h next ha =>
      have hmem : (⟨i, h, .call op next⟩ : Thread Ans ι α) ∈ ts ++ ⟨i, h, .call op next⟩ :: us := by
        simp
      -- the thread has come to its question by answers that it relies on
      have hasks : Spec P h (.call op next) (Q i) := by
        simpa using (hb i).steps (hr.steps _ hmem) (hhist _ hmem)
      obtain ⟨hworld', hev⟩ := hact _ _ _ _ _ hworld hasks.1 ha
      refine ⟨hworld', fun t ht => ?_⟩
      simp only [List.mem_append, List.mem_cons] at ht
      rcases ht with ht | rfl | ht
      · exact hhist t (by simp [ht])
      · exact List.forall_mem_append.mpr ⟨hhist _ hmem, List.forall_mem_singleton.mpr hev⟩
      · exact hhist t (by simp [ht])

end Interact
