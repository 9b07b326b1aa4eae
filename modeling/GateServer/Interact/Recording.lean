import GateServer.Interact.Refinement

/-!
# Threads with a record

Each thread is paired with the effects it has had since its call began. The record does
not change what the threads do.
-/

namespace Interact

variable {Op : Type} {Ans : Op → Type} {S L Cv K : Type}

structure Recorded (Ans : Op → Type) (L : Type) where
  thread : L
  since : List (Event Ans)

namespace Machine

/-- A record is cleared when an idle thread moves. -/
def recording (M : Machine S L Cv) (effect : S → L → L → Effect Ans) (idle : L → Bool) :
    Machine S (Recorded Ans L) Cv where
  next s t sig s' t' := M.next s t.thread sig s' t'.thread ∧
    t'.since = (if idle t.thread then [] else t.since) ++ (effect s t.thread t'.thread).events
  parked t := M.parked t.thread
  woken t := ⟨M.woken t.thread, t.since⟩

def forget (c : Monitor S (Recorded Ans L)) : Monitor S L :=
  ⟨c.shared, c.threads.map Recorded.thread⟩

def blank (Ans : Op → Type) (c : Monitor S L) : Monitor S (Recorded Ans L) :=
  ⟨c.shared, c.threads.map (⟨·, []⟩)⟩

variable [DecidableEq Cv] {M : Machine S L Cv} {effect : S → L → L → Effect Ans}
  {idle : L → Bool} {c c' : Monitor S (Recorded Ans L)} {c₀ : Monitor S L}

theorem forget_blank (c : Monitor S L) : forget (blank Ans c) = c := by
  simp [forget, blank, Function.comp_def]

theorem Wakes.forget {ts ts' : List (Recorded Ans L)}
    (hw : (M.recording effect idle).Wakes sig ts ts') :
    M.Wakes sig (ts.map Recorded.thread) (ts'.map Recorded.thread) := by
  cases hw with
  | quiet => exact .quiet
  | one hpark =>
    rw [List.map_append, List.map_append, List.map_cons, List.map_cons]
    exact .one hpark
  | nobody hnone =>
    refine .nobody fun l hl => ?_
    obtain ⟨t, ht, rfl⟩ := List.mem_map.mp hl
    exact hnone t ht
  | @all cv ts =>
    have hmap : (ts.map ((M.recording effect idle).wake cv)).map Recorded.thread =
        (ts.map Recorded.thread).map (M.wake cv) := by
      rw [List.map_map, List.map_map]
      refine List.map_congr_left fun t _ => ?_
      simp only [Function.comp_apply, wake]
      exact apply_ite Recorded.thread _ _ _
    rw [hmap]
    exact .all

theorem Step.forget (hs : (M.recording effect idle).Step c t t' c') :
    M.Step (forget c) t.thread t'.thread (forget c') := by
  cases hs with
  | mk hn hw =>
    have hwakes := hw.forget
    rw [List.map_append, List.map_cons] at hwakes
    rw [Machine.forget, List.map_append, List.map_cons]
    exact .mk hn.1 hwakes

abbrev Remembers (M : Machine S L Cv) (effect : S → L → L → Effect Ans) (idle : L → Bool)
    (c₀ : Monitor S L) : List (Event Ans) → Monitor S (Recorded Ans L) → Prop :=
  (M.recording effect idle).Traced (fun s t t' => effect s t.thread t'.thread) Any (blank Ans c₀)

theorem Traced.forget (ht : M.Remembers effect idle c₀ tr c) :
    M.Traced effect Any c₀ tr (forget c) := by
  induction ht with
  | start => rw [forget_blank]; exact .start
  | step _ _ hs ih => exact ih.step trivial hs.forget

theorem Remembers.moves (ts us : List (Recorded Ans L))
    (ht : M.Remembers effect idle c₀ tr ⟨s, ts ++ ⟨l, since⟩ :: us⟩)
    (hn : M.next s l .quiet s' l') :
    M.Remembers effect idle c₀ (tr ++ (effect s l l').events) ⟨s', ts ++
      ⟨l', (if idle l then [] else since) ++ (effect s l l').events⟩ :: us⟩ := by
  have hnext : (M.recording effect idle).next s ⟨l, since⟩ .quiet s'
      ⟨l', (if idle l then [] else since) ++ (effect s l l').events⟩ := ⟨hn, rfl⟩
  exact Traced.quiet ts us ht hnext trivial

variable {locked : S → K → Bool} {inside : L → K → Bool}

omit [DecidableEq Cv] in
theorem Lock.recording (lock : M.Lock locked inside) :
    (M.recording effect idle).Lock locked fun t k => inside t.thread k where
  balance hn := lock.balance hn.1
  woken hpark := lock.woken hpark

theorem Excludes.blank (hx : Excludes locked inside c₀) :
    Excludes locked (fun t k => inside t.thread k) (blank Ans c₀) := by
  intro k
  rw [Machine.blank, List.countP_map]
  exact hx k

/-- What a thread has recorded at its place. -/
structure Records (M : Machine S L Cv) (effect : S → L → L → Effect Ans) (idle : L → Bool)
    (inside : L → K → Bool) (P : S → L → Prop) (R : S → L → List (Event Ans) → Prop) : Prop where
  own : M.next s l sig s' l' → P s l → R s l since →
    R s' l' ((if idle l then [] else since) ++ (effect s l l').events)
  others : M.next s l sig s' l' → R s u since →
    (∀ k, inside u k = true → inside l k = false ∧ inside l' k = false) → R s' u since
  woken : (M.parked l).isSome → R s l since → R s (M.woken l) since

variable {P : S → L → Prop} {R : S → L → List (Event Ans) → Prop}

omit [DecidableEq Cv] in
theorem Records.outline (records : M.Records effect idle inside P R)
    (outline : M.Outline Any inside P) :
    (M.recording effect idle).Outline Any (fun t k => inside t.thread k)
      fun s t => P s t.thread ∧ R s t.thread t.since where
  own _ hn h := by
    refine ⟨outline.own (show Any ⟨_, []⟩ _ _ from trivial) hn.1 h.1, ?_⟩
    rw [hn.2]
    exact records.own hn.1 h.1 h.2
  others hn hl hu hapart :=
    ⟨outline.others hn.1 hl.1 hu.1 hapart, records.others hn.1 hu.2 hapart⟩
  woken hpark h := ⟨outline.woken hpark h.1, records.woken hpark h.2⟩

theorem Records.holds (records : M.Records effect idle inside P R)
    (outline : M.Outline Any inside P) (lock : M.Lock locked inside)
    (hx : Excludes locked inside c₀) (hp : ∀ l ∈ c₀.threads, P c₀.shared l)
    (h0 : ∀ l ∈ c₀.threads, R c₀.shared l []) (ht : M.Remembers effect idle c₀ tr c) :
    ∀ t ∈ c.threads, R c.shared t.thread t.since := by
  intro t hmem
  refine ((records.outline outline).holds lock.recording hx.blank ?_ ht.reachable t hmem).2
  intro t ht
  obtain ⟨l, hl, rfl⟩ := List.mem_map.mp ht
  exact ⟨hp l hl, h0 l hl⟩

end Machine
end Interact
