import GateServer.Interact.Monitor

/-!
# No lost wakeup

Threads wait for elements at a condition variable. A thread that adds an element attends
to it until it has notified, and a notified thread attends to one until it has tested its
predicate. Then no thread waits while there are more idle elements than attending threads.
-/

namespace Interact

@[simp] def Signal.wakesOne [DecidableEq Cv] (cv : Cv) : Signal Cv → Nat
  | .one cv' => if cv' = cv then 1 else 0
  | _ => 0

namespace Machine

variable {S L Cv : Type} [DecidableEq Cv] {M : Machine S L Cv} {Ok : Monitor S L → L → L → Prop}
  {P : S → L → Prop} {cv : Cv} {idle : S → Nat} {attends : L → Bool} {c₀ c c' : Monitor S L}

/-- `P` is an invariant of each thread, which may be assumed of the thread that moves. -/
structure Attends (M : Machine S L Cv) (P : S → L → Prop) (cv : Cv) (idle : S → Nat)
    (attends : L → Bool) : Prop where
  step : M.next s l sig s' l' → P s l → idle s' = 0 ∨
    idle s' + (attends l).toNat ≤ idle s + (attends l').toNat + sig.wakesOne cv
  waits : M.next s l sig s' l' → P s l → M.parked l' = some cv → idle s' = 0
  woken : M.parked l = some cv → attends l = false ∧ attends (M.woken l) = true
  kept : (M.parked l).isSome → attends l = true → attends (M.woken l) = true
  leaves : M.parked l = some cv' → M.parked (M.woken l) ≠ some cv

def Attended (M : Machine S L Cv) (cv : Cv) (idle : S → Nat) (attends : L → Bool)
    (c : Monitor S L) : Prop :=
  (∀ l ∈ c.threads, M.parked l ≠ some cv) ∨ idle c.shared ≤ c.threads.countP attends

theorem Attends.nobody (h : M.Attends P cv idle attends) (hw : M.Wakes sig ts ts')
    (hnone : ∀ l ∈ ts, M.parked l ≠ some cv) : ∀ l ∈ ts', M.parked l ≠ some cv := by
  intro l' hl'
  obtain ⟨l, hl, rfl | ⟨hpark, rfl⟩⟩ := hw.mem hl'
  · exact hnone l' hl
  · obtain ⟨cv', hcv'⟩ := Option.isSome_iff_exists.mp hpark
    exact h.leaves hcv'

theorem Attends.wakes (h : M.Attends P cv idle attends) (hw : M.Wakes sig ts ts') :
    (∀ l ∈ ts', M.parked l ≠ some cv) ∨
      ts.countP attends + sig.wakesOne cv ≤ ts'.countP attends := by
  have hkept : ts.countP attends ≤ ts'.countP attends := hw.le_countP fun l => h.kept
  cases sig with
  | quiet => exact .inr hkept
  | all => exact .inr hkept
  | one cv' =>
    by_cases hcv : cv' = cv
    · subst hcv
      rcases hw.one_cases with ⟨rfl, hnone⟩ | ⟨l, hl, hcount⟩
      · exact .inl hnone
      · obtain ⟨hparked, hwoken⟩ := h.woken hl
        have hattend := hcount attends
        rw [hparked, hwoken, Bool.toNat_false, Bool.toNat_true] at hattend
        rw [Signal.wakesOne, if_pos rfl]
        exact .inr (Nat.le_of_eq hattend.symm)
    · rw [Signal.wakesOne, if_neg hcv]
      exact .inr hkept

theorem Attends.attended_step (h : M.Attends P cv idle attends) (hs : M.Step c l l' c')
    (hl : P c.shared l) (hc : M.Attended cv idle attends c) : M.Attended cv idle attends c' := by
  obtain ⟨ts, us, sig, hts, hn, hw⟩ := hs.inv
  by_cases hpark : M.parked l' = some cv
  · exact .inr (by rw [h.waits hn hl hpark]; exact Nat.zero_le _)
  rcases hc with hnone | hidle
  · have hmoved : ∀ u ∈ ts ++ l' :: us, M.parked u ≠ some cv := by
      intro u hu
      rcases List.mem_append.mp hu with hu | hu
      · exact hnone u (mem_of_other hts (List.mem_append_left _ hu))
      · rcases List.mem_cons.mp hu with rfl | hu
        · exact hpark
        · exact hnone u (mem_of_other hts (List.mem_append_right _ hu))
    exact .inl (h.nobody hw hmoved)
  · refine (h.wakes hw).imp id fun hcount => ?_
    have hmove := countP_move hts attends l'
    rcases h.step hn hl with hzero | hle
    · rw [hzero]
      exact Nat.zero_le _
    · omega

/-- No thread waits while there are more idle elements than threads that attend to them. -/
theorem Attends.attended (h : M.Attends P cv idle attends)
    (hP : ∀ c, M.Reachable Ok c₀ c → ∀ l ∈ c.threads, P c.shared l)
    (h0 : ∀ l ∈ c₀.threads, M.parked l ≠ some cv) (hr : M.Reachable Ok c₀ c) :
    M.Attended cv idle attends c :=
  hr.invariant (.inl h0) fun _ _ _ _ hr _ hs hc => h.attended_step hs (hP _ hr _ hs.mover) hc

theorem Attends.idle_le (h : M.Attends P cv idle attends)
    (hP : ∀ c, M.Reachable Ok c₀ c → ∀ l ∈ c.threads, P c.shared l)
    (h0 : ∀ l ∈ c₀.threads, M.parked l ≠ some cv) (hr : M.Reachable Ok c₀ c)
    (hl : l ∈ c.threads) (hwaits : M.parked l = some cv) :
    idle c.shared ≤ c.threads.countP attends :=
  (h.attended hP h0 hr).resolve_left fun hnone => hnone l hl hwaits

end Machine
end Interact
