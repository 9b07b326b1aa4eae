import Mathlib.Data.List.Count

/-!
# Threads at a monitor

Any number of threads run code on a shared state, a step at a time. A thread that waits on
a condition variable is parked until it is notified. A mutex is a flag of the shared
state: `Lock` counts who is inside, and `Outline` is the rule of proof outlines, with an
assertion for each place.
-/

namespace Interact

/-- What a step signals to the threads that are parked at a condition variable. -/
inductive Signal (Cv : Type)
  | quiet
  | one (cv : Cv)
  | all (cv : Cv)

/-- The code of a thread: its next steps, where it is parked, and where it continues when it is
woken. -/
structure Machine (S L Cv : Type) where
  next : S → L → Signal Cv → S → L → Prop
  parked : L → Option Cv
  woken : L → L

structure Monitor (S L : Type) where
  shared : S
  threads : List L

namespace Machine

variable {S L Cv : Type} [DecidableEq Cv] (M : Machine S L Cv)

def wake (cv : Cv) (l : L) : L := if M.parked l = some cv then M.woken l else l

inductive Wakes : Signal Cv → List L → List L → Prop
  | quiet : Wakes .quiet ts ts
  | one : M.parked l = some cv → Wakes (.one cv) (ts ++ l :: us) (ts ++ M.woken l :: us)
  | nobody : (∀ l ∈ ts, M.parked l ≠ some cv) → Wakes (.one cv) ts ts
  | all : Wakes (.all cv) ts (ts.map (M.wake cv))

/-- One step, labelled with the thread that moves before and after it. -/
inductive Step : Monitor S L → L → L → Monitor S L → Prop
  | mk : M.next s l sig s' l' → M.Wakes sig (ts ++ l' :: us) ts' →
      Step ⟨s, ts ++ l :: us⟩ l l' ⟨s', ts'⟩

/-- The states that are reached by steps which satisfy `Ok`. -/
inductive Reachable (Ok : Monitor S L → L → L → Prop) (c₀ : Monitor S L) : Monitor S L → Prop
  | start : Reachable Ok c₀ c₀
  | step : Reachable Ok c₀ c → Ok c l l' → M.Step c l l' c' → Reachable Ok c₀ c'

abbrev Any : Monitor S L → L → L → Prop := fun _ _ _ => True

variable {M} {Ok : Monitor S L → L → L → Prop} {c₀ c c' : Monitor S L}

theorem Reachable.invariant {I : Monitor S L → Prop} (hr : M.Reachable Ok c₀ c) (h0 : I c₀)
    (hstep : ∀ c l l' c', M.Reachable Ok c₀ c → Ok c l l' → M.Step c l l' c' → I c → I c') :
    I c := by
  induction hr with
  | start => exact h0
  | step hr hok hs ih => exact hstep _ _ _ _ hr hok hs ih

theorem Reachable.imp {Ok' : Monitor S L → L → L → Prop} (hr : M.Reachable Ok c₀ c)
    (h : ∀ c l l', M.Reachable Ok c₀ c → Ok c l l' → Ok' c l l') : M.Reachable Ok' c₀ c := by
  induction hr with
  | start => exact .start
  | step hr hok hs ih => exact ih.step (h _ _ _ hr hok) hs

-- ---------------------------------------------------------------------------
-- Waking
-- ---------------------------------------------------------------------------

def Roused (M : Machine S L Cv) (l l' : L) : Prop :=
  l' = l ∨ (M.parked l).isSome ∧ l' = M.woken l

omit [DecidableEq Cv] in
theorem Roused.refl (l : L) : M.Roused l l := .inl rfl

theorem wake_roused (cv : Cv) (l : L) : M.Roused l (M.wake cv l) := by
  unfold wake
  split
  · exact .inr ⟨by simp [*], rfl⟩
  · exact .refl l

theorem Wakes.mem (hw : M.Wakes sig ts ts') (hl : l' ∈ ts') : ∃ l ∈ ts, M.Roused l l' := by
  cases hw with
  | quiet => exact ⟨l', hl, .refl l'⟩
  | nobody => exact ⟨l', hl, .refl l'⟩
  | @one l _ ts us hpark =>
    rcases List.mem_append.mp hl with hl | hl
    · exact ⟨l', List.mem_append_left _ hl, .refl l'⟩
    · rcases List.mem_cons.mp hl with rfl | hl
      · exact ⟨l, by simp, .inr ⟨by simp [hpark], rfl⟩⟩
      · exact ⟨l', by simp [hl], .refl l'⟩
  | all =>
    obtain ⟨l, hmem, rfl⟩ := List.mem_map.mp hl
    exact ⟨l, hmem, wake_roused _ l⟩

theorem Wakes.map_eq {f : L → α} (hf : ∀ l, (M.parked l).isSome → f (M.woken l) = f l)
    (hw : M.Wakes sig ts ts') : ts'.map f = ts.map f := by
  cases hw with
  | quiet => rfl
  | nobody => rfl
  | one hpark => simp [hf _ (Option.isSome_iff_exists.mpr ⟨_, hpark⟩)]
  | all =>
    rw [List.map_map]
    refine List.map_congr_left fun l _ => ?_
    simp only [Function.comp_apply, wake]
    split
    · exact hf l (Option.isSome_iff_exists.mpr ⟨_, ‹_›⟩)
    · rfl

theorem countP_of_map_eq {p : L → Bool} {ts ts' : List L} (h : ts'.map p = ts.map p) :
    ts'.countP p = ts.countP p := by
  have hcount (us : List L) : us.countP p = (us.map p).countP id := by
    rw [List.countP_map, Function.id_comp]
  rw [hcount, hcount, h]

theorem Wakes.countP_eq {p : L → Bool} (hp : ∀ l, (M.parked l).isSome → p (M.woken l) = p l)
    (hw : M.Wakes sig ts ts') : ts'.countP p = ts.countP p :=
  countP_of_map_eq (hw.map_eq hp)

theorem Wakes.countP_le {p : L → Bool}
    (hp : ∀ l, (M.parked l).isSome → p (M.woken l) = true → p l = true)
    (hw : M.Wakes sig ts ts') : ts'.countP p ≤ ts.countP p := by
  cases hw with
  | quiet => exact Nat.le_refl _
  | nobody => exact Nat.le_refl _
  | @one l cv us vs hl =>
    have := hp l (Option.isSome_iff_exists.mpr ⟨cv, hl⟩)
    cases h : p l <;> cases h' : p (M.woken l) <;> simp_all
  | all =>
    rw [List.countP_map]
    refine List.countP_mono_left fun l _ h => ?_
    simp only [Function.comp_apply, wake] at h
    split at h
    · exact hp l (Option.isSome_iff_exists.mpr ⟨_, ‹_›⟩) h
    · exact h

theorem Wakes.le_countP {p : L → Bool}
    (hp : ∀ l, (M.parked l).isSome → p l = true → p (M.woken l) = true)
    (hw : M.Wakes sig ts ts') : ts.countP p ≤ ts'.countP p := by
  cases hw with
  | quiet => exact Nat.le_refl _
  | nobody => exact Nat.le_refl _
  | @one l cv us vs hl =>
    have := hp l (Option.isSome_iff_exists.mpr ⟨cv, hl⟩)
    cases h : p l <;> cases h' : p (M.woken l) <;> simp_all
  | all =>
    rw [List.countP_map]
    refine List.countP_mono_left fun l _ h => ?_
    simp only [Function.comp_apply, wake]
    split
    · exact hp l (Option.isSome_iff_exists.mpr ⟨_, ‹_›⟩) h
    · exact h

theorem countP_split (p : L → Bool) (ts us : List L) (l : L) :
    (ts ++ l :: us).countP p = (ts ++ us).countP p + (p l).toNat := by
  cases h : p l <;> simp [h]
  omega

theorem Wakes.quiet_eq (hw : M.Wakes .quiet ts ts') : ts' = ts := by
  cases hw
  rfl

theorem Wakes.one_cases (hw : M.Wakes (.one cv) ts ts') :
    (ts' = ts ∧ ∀ l ∈ ts, M.parked l ≠ some cv) ∨
    ∃ l, M.parked l = some cv ∧
      ∀ p : L → Bool, ts'.countP p + (p l).toNat = ts.countP p + (p (M.woken l)).toNat := by
  cases hw with
  | nobody hnone => exact .inl ⟨rfl, hnone⟩
  | @one l _ us vs hl =>
    refine .inr ⟨l, hl, fun p => ?_⟩
    rw [countP_split, countP_split]
    omega

theorem Wakes.all_parked (hw : M.Wakes (.all cv) ts ts')
    (hwoken : ∀ l, M.parked l = some cv → M.parked (M.woken l) ≠ some cv) :
    ∀ l ∈ ts', M.parked l ≠ some cv := by
  cases hw with
  | all =>
    intro l' hl'
    obtain ⟨l, -, rfl⟩ := List.mem_map.mp hl'
    unfold wake
    split
    · exact hwoken l ‹_›
    · assumption

-- ---------------------------------------------------------------------------
-- Steps
-- ---------------------------------------------------------------------------

theorem Step.inv (hs : M.Step c l l' c') : ∃ ts us sig, c.threads = ts ++ l :: us ∧
    M.next c.shared l sig c'.shared l' ∧ M.Wakes sig (ts ++ l' :: us) c'.threads := by
  cases hs with
  | mk hn hw => exact ⟨_, _, _, rfl, hn, hw⟩

theorem Step.mover (hs : M.Step c l l' c') : l ∈ c.threads := by
  obtain ⟨ts, us, sig, hts, -⟩ := hs.inv
  simp [hts]

theorem countP_move {ts us threads : List L} (hts : threads = ts ++ l :: us) (p : L → Bool)
    (l' : L) : (ts ++ l' :: us).countP p + (p l).toNat = threads.countP p + (p l').toNat := by
  rw [hts, countP_split, countP_split]
  omega

theorem Step.countP {p : L → Bool} (hp : ∀ l, (M.parked l).isSome → p (M.woken l) = p l)
    (hs : M.Step c l l' c') :
    c'.threads.countP p + (p l).toNat = c.threads.countP p + (p l').toNat := by
  obtain ⟨ts, us, sig, hts, -, hw⟩ := hs.inv
  rw [hw.countP_eq hp]
  exact countP_move hts p l'

theorem Step.countP_le {p : L → Bool}
    (hp : ∀ l, (M.parked l).isSome → p (M.woken l) = true → p l = true) (hs : M.Step c l l' c') :
    c'.threads.countP p + (p l).toNat ≤ c.threads.countP p + (p l').toNat := by
  obtain ⟨ts, us, sig, hts, -, hw⟩ := hs.inv
  rw [← countP_move hts p l']
  exact Nat.add_le_add_right (hw.countP_le hp) _

theorem Step.countP_pos {p : L → Bool}
    (hp : ∀ l, (M.parked l).isSome → p (M.woken l) = true → p l = true) (hs : M.Step c l l' c')
    (h : 0 < c'.threads.countP p) (hl : p l' = true → p l = true) : 0 < c.threads.countP p := by
  have hle := hs.countP_le hp
  cases hl' : p l' with
  | true => exact List.countP_pos_iff.mpr ⟨l, hs.mover, hl hl'⟩
  | false =>
    rw [hl', Bool.toNat_false] at hle
    exact Nat.lt_of_lt_of_le h (Nat.le_trans (Nat.le_add_right _ _) hle)

theorem Step.countP_zero {p : L → Bool}
    (hp : ∀ l, (M.parked l).isSome → p (M.woken l) = true → p l = true) (hs : M.Step c l l' c')
    (h : c.threads.countP p = 0) (hl' : p l' = false) : c'.threads.countP p = 0 := by
  refine Nat.eq_zero_of_not_pos fun hpos => ?_
  have hbefore := hs.countP_pos hp hpos fun hl => nomatch hl'.symm.trans hl
  rw [h] at hbefore
  cases hbefore

theorem mem_of_other {ts us threads : List L} (hts : threads = ts ++ l :: us)
    (hu : u ∈ ts ++ us) : u ∈ threads := by
  rw [hts, List.mem_append, List.mem_cons]
  exact (List.mem_append.mp hu).imp_right .inr

theorem Step.mem (hs : M.Step c l l' c') (hu : u' ∈ c'.threads) :
    M.Roused l' u' ∨ ∃ u, M.Roused u u' ∧ ∃ ts us, c.threads = ts ++ l :: us ∧ u ∈ ts ++ us := by
  obtain ⟨ts, us, sig, hts, -, hw⟩ := hs.inv
  obtain ⟨u, hu, hr⟩ := hw.mem hu
  rcases List.mem_append.mp hu with hu | hu
  · exact .inr ⟨u, hr, ts, us, hts, List.mem_append_left _ hu⟩
  · rcases List.mem_cons.mp hu with rfl | hu
    · exact .inl hr
    · exact .inr ⟨u, hr, ts, us, hts, List.mem_append_right _ hu⟩

theorem Wakes.mem_of_unparked (hw : M.Wakes sig ts ts') (hl : l ∈ ts)
    (hpark : M.parked l = none) : l ∈ ts' := by
  cases hw with
  | quiet => exact hl
  | nobody => exact hl
  | @one l₀ cv us vs hl₀ =>
    have hne : l ≠ l₀ := by
      rintro rfl
      cases hpark.symm.trans hl₀
    rw [List.mem_append, List.mem_cons] at hl ⊢
    exact hl.imp_right fun hl => .inr (hl.resolve_left hne)
  | all =>
    refine List.mem_map.mpr ⟨l, hl, ?_⟩
    unfold wake
    rw [hpark]
    exact if_neg nofun

theorem Step.arrives (hs : M.Step c l l' c') (hpark : M.parked l' = none) : l' ∈ c'.threads := by
  obtain ⟨ts, us, sig, -, -, hw⟩ := hs.inv
  exact hw.mem_of_unparked (by simp) hpark

theorem Step.stays (hs : M.Step c l l' c') (hu : u ∈ c.threads) (hne : u ≠ l)
    (hpark : M.parked u = none) : u ∈ c'.threads := by
  obtain ⟨ts, us, sig, hts, -, hw⟩ := hs.inv
  rw [hts, List.mem_append, List.mem_cons] at hu
  refine hw.mem_of_unparked ?_ hpark
  rw [List.mem_append, List.mem_cons]
  exact hu.imp_right fun hu => .inr (hu.resolve_left hne)

/-- A thread at a place where waking leads no thread has just come there, or was there. -/
theorem Step.came (hs : M.Step c l l' c') (hu : u ∈ c'.threads)
    (hwoken : ∀ v, (M.parked v).isSome → M.woken v ≠ u) :
    u = l' ∨ ∃ ts us, c.threads = ts ++ l :: us ∧ u ∈ ts ++ us := by
  obtain hr | ⟨v, hr, ts, us, hts, hv⟩ := hs.mem hu
  · obtain rfl | ⟨hpark, rfl⟩ := hr
    · exact .inl rfl
    · exact absurd rfl (hwoken _ hpark)
  · obtain rfl | ⟨hpark, rfl⟩ := hr
    · exact .inr ⟨ts, us, hts, hv⟩
    · exact absurd rfl (hwoken _ hpark)

theorem Reachable.quiet (ts us : List L) (hr : M.Reachable Ok c₀ ⟨s, ts ++ l :: us⟩)
    (hn : M.next s l .quiet s' l') (hok : Ok ⟨s, ts ++ l :: us⟩ l l') :
    M.Reachable Ok c₀ ⟨s', ts ++ l' :: us⟩ :=
  hr.step hok (.mk hn .quiet)

inductive Path (M : Machine S L Cv) : S → L → S → L → Prop
  | refl : Path M s l s l
  | step : M.next s l .quiet s' l' → Path M s' l' s'' l'' → Path M s l s'' l''

theorem Reachable.path (ts us : List L) (hr : M.Reachable Ok c₀ ⟨s, ts ++ l :: us⟩)
    (hp : M.Path s l s' l') (hok : ∀ s l l', Ok ⟨s, ts ++ l :: us⟩ l l') :
    M.Reachable Ok c₀ ⟨s', ts ++ l' :: us⟩ := by
  induction hp with
  | refl => exact hr
  | step hn _ ih => exact ih (hr.quiet ts us hn (hok ..))

theorem Reachable.notify (ts us : List L) (hr : M.Reachable Ok c₀ ⟨s, ts ++ l :: us⟩)
    (hn : M.next s l (.all cv) s' l') (hok : Ok ⟨s, ts ++ l :: us⟩ l l') :
    M.Reachable Ok c₀ ⟨s', (ts ++ l' :: us).map (M.wake cv)⟩ :=
  hr.step hok (.mk hn .all)

theorem Reachable.notify_one (ts us vs : List L)
    (hr : M.Reachable Ok c₀ ⟨s, ts ++ l :: (us ++ w :: vs)⟩) (hn : M.next s l (.one cv) s' l')
    (hok : Ok ⟨s, ts ++ l :: (us ++ w :: vs)⟩ l l') (hw : M.parked w = some cv) :
    M.Reachable Ok c₀ ⟨s', ts ++ l' :: (us ++ M.woken w :: vs)⟩ := by
  have hwakes : M.Wakes (.one cv) ((ts ++ l' :: us) ++ w :: vs)
      ((ts ++ l' :: us) ++ M.woken w :: vs) := .one hw
  simp only [List.append_assoc, List.cons_append] at hwakes
  exact hr.step hok (.mk hn hwakes)

theorem Reachable.notify_nobody (ts us : List L) (hr : M.Reachable Ok c₀ ⟨s, ts ++ l :: us⟩)
    (hn : M.next s l (.one cv) s' l') (hok : Ok ⟨s, ts ++ l :: us⟩ l l')
    (hnone : ∀ l ∈ ts ++ l' :: us, M.parked l ≠ some cv) :
    M.Reachable Ok c₀ ⟨s', ts ++ l' :: us⟩ :=
  hr.step hok (.mk hn (.nobody hnone))

-- ---------------------------------------------------------------------------
-- Mutexes
-- ---------------------------------------------------------------------------

variable {K : Type} {locked : S → K → Bool} {inside : L → K → Bool}

/-- A family of mutexes, each of them a flag that is set on entering and cleared on leaving. A
thread that would enter while the flag is set has no step. -/
structure Lock (M : Machine S L Cv) (locked : S → K → Bool) (inside : L → K → Bool) : Prop where
  balance : M.next s l sig s' l' → ∀ k, (inside l k = true → locked s k = true) →
    (locked s' k).toNat + (inside l k).toNat = (locked s k).toNat + (inside l' k).toNat
  woken : (M.parked l).isSome → inside (M.woken l) = inside l

/-- The flag counts the threads inside: one or none. -/
def Excludes (locked : S → K → Bool) (inside : L → K → Bool) (c : Monitor S L) : Prop :=
  ∀ k, c.threads.countP (inside · k) = (locked c.shared k).toNat

theorem Excludes.flag (hx : Excludes locked inside c) (hl : l ∈ c.threads)
    (hin : inside l k = true) : locked c.shared k = true := by
  have hpos : 0 < c.threads.countP (inside · k) := List.countP_pos_iff.mpr ⟨l, hl, hin⟩
  rw [hx k] at hpos
  cases h : locked c.shared k with
  | true => rfl
  | false => simp [h] at hpos

theorem Lock.step (lock : M.Lock locked inside) (hs : M.Step c l l' c')
    (hx : Excludes locked inside c) : Excludes locked inside c' := by
  intro k
  obtain ⟨ts, us, sig, hts, hn, hw⟩ := hs.inv
  have hcount := hs.countP (p := (inside · k)) fun l hl => congrFun (lock.woken hl) k
  have hbalance := lock.balance hn k (hx.flag hs.mover)
  have := hx k
  omega

theorem Lock.excludes (lock : M.Lock locked inside) (h0 : Excludes locked inside c₀)
    (hr : M.Reachable Ok c₀ c) : Excludes locked inside c :=
  hr.invariant h0 fun _ _ _ _ _ _ hs => lock.step hs

theorem Excludes.alone (hx : Excludes locked inside c) (hts : c.threads = ts ++ l :: us)
    (hin : inside l k = true) (hu : u ∈ ts ++ us) : inside u k = false := by
  have hcount := hx k
  rw [hts, countP_split, hin] at hcount
  have hle : (locked c.shared k).toNat ≤ 1 := Bool.toNat_le _
  have hzero : (ts ++ us).countP (inside · k) = 0 := by
    simp only [Bool.toNat_true] at hcount
    omega
  simpa using List.countP_eq_zero.mp hzero u hu

/-- A thread inside is the only one of those that can only be inside. -/
theorem Excludes.countP {p : L → Bool} (hx : Excludes locked inside c)
    (hts : c.threads = ts ++ l :: us) (hin : inside l k = true)
    (hp : ∀ u, p u = true → inside u k = true) : c.threads.countP p = (p l).toNat := by
  have hothers : (ts ++ us).countP p = 0 := by
    refine List.countP_eq_zero.mpr fun u hu h => ?_
    cases (hp u h).symm.trans (hx.alone hts hin hu)
  rw [hts, countP_split, hothers, Nat.zero_add]

theorem Excludes.only (hx : Excludes locked inside c) (hts : c.threads = ts ++ l :: us)
    (hin : inside l k = true) (hu : u ∈ c.threads) (hinu : inside u k = true) : u = l := by
  rw [hts, List.mem_append, List.mem_cons] at hu
  rcases hu with hu | rfl | hu
  · cases hinu.symm.trans (hx.alone hts hin (List.mem_append_left _ hu))
  · rfl
  · cases hinu.symm.trans (hx.alone hts hin (List.mem_append_right _ hu))

omit [DecidableEq Cv] in
/-- While a thread is inside, another thread neither is nor comes in. -/
theorem Lock.apart (lock : M.Lock locked inside) (hx : Excludes locked inside c)
    (hts : c.threads = ts ++ l :: us) (hn : M.next c.shared l sig s' l') (hu : u ∈ ts ++ us)
    (hin : inside u k = true) : inside l k = false ∧ inside l' k = false := by
  have hl : inside l k = false := by
    cases h : inside l k with
    | false => rfl
    | true => cases hin.symm.trans (hx.alone hts h hu)
  have hflag : locked c.shared k = true := hx.flag (mem_of_other hts hu) hin
  refine ⟨hl, ?_⟩
  cases h : inside l' k with
  | false => rfl
  | true =>
    have hbalance := lock.balance hn k fun h => absurd h (by simp [hl])
    have hle : (locked s' k).toNat ≤ 1 := Bool.toNat_le _
    simp only [hl, hflag, h, Bool.toNat_true, Bool.toNat_false] at hbalance
    omega

-- ---------------------------------------------------------------------------
-- Proof outlines
-- ---------------------------------------------------------------------------

/-- What a thread knows at its place is established by its own steps, and is stable under the
steps of threads outside of the mutexes that it is in. -/
structure Outline (M : Machine S L Cv) (Ok : Monitor S L → L → L → Prop)
    (inside : L → K → Bool) (P : S → L → Prop) : Prop where
  own : Ok ⟨s, ts⟩ l l' → M.next s l sig s' l' → P s l → P s' l'
  others : M.next s l sig s' l' → P s l → P s u →
    (∀ k, inside u k = true → inside l k = false ∧ inside l' k = false) → P s' u
  woken : (M.parked l).isSome → P s l → P s (M.woken l)

theorem Outline.step {P : S → L → Prop} (outline : M.Outline Ok inside P)
    (lock : M.Lock locked inside) (hx : Excludes locked inside c) (hok : Ok c l l')
    (hs : M.Step c l l' c') (hp : ∀ l ∈ c.threads, P c.shared l) :
    ∀ l ∈ c'.threads, P c'.shared l := by
  have hroused {s : S} {u u' : L} (hr : M.Roused u u') (hu : P s u) : P s u' := by
    rcases hr with rfl | ⟨hl, rfl⟩
    · exact hu
    · exact outline.woken hl hu
  obtain ⟨ts, us, sig, hts, hn, hw⟩ := hs.inv
  have hl : P c.shared l := hp l hs.mover
  intro u' hu'
  obtain ⟨u, hu, hr⟩ := hw.mem hu'
  apply hroused hr
  have hother (h : u ∈ ts ++ us) : P c'.shared u :=
    outline.others hn hl (hp u (mem_of_other hts h)) fun k hin => lock.apart hx hts hn h hin
  rcases List.mem_append.mp hu with hu | hu
  · exact hother (List.mem_append_left _ hu)
  · rcases List.mem_cons.mp hu with rfl | hu
    · exact outline.own hok hn hl
    · exact hother (List.mem_append_right _ hu)

theorem Outline.holds {P : S → L → Prop} (outline : M.Outline Ok inside P)
    (lock : M.Lock locked inside) (hx : Excludes locked inside c₀)
    (h0 : ∀ l ∈ c₀.threads, P c₀.shared l) (hr : M.Reachable Ok c₀ c) :
    ∀ l ∈ c.threads, P c.shared l :=
  hr.invariant (I := fun c => ∀ l ∈ c.threads, P c.shared l) h0
    fun _ _ _ _ hr hok hs hp => outline.step lock (lock.excludes hx hr) hok hs hp

end Machine
end Interact
