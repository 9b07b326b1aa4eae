import GateServer.LogQueue

/-!
# The log thread is woken

`running` is stored outside the mutex, but `stop` notifies inside it, after the store. So
between the predicate and the wait a store can happen but its notification cannot, and a
sleeping thread that has missed the store has yet to be notified of it.
-/

namespace GateServer.LogQueue

open Interact

@[simp] def Place.pushing : Place → Bool
  | .pushQueue _ | .pushNotify | .pushUnlock => true
  | _ => false

def Notifying (c : Monitor Shared Place) : Prop := .stopLock ∈ c.threads ∨ .stopNotify ∈ c.threads

/-- The log thread between finding the queue empty and being woken. -/
structure Asleep (c : Monitor Shared Place) : Prop where
  block : .block ∈ c.threads → c.shared.queue = []
  wait : .wait ∈ c.threads → c.shared.queue = [] ∨ .pushNotify ∈ c.threads
  runs : .block ∈ c.threads ∨ .wait ∈ c.threads → c.shared.running = true ∨ Notifying c

-- ---------------------------------------------------------------------------
-- What one step does
-- ---------------------------------------------------------------------------

theorem Next.fills (hn : Next s p sig s' p') (h : s.queue = []) :
    s'.queue = [] ∨ p.locks = true ∧ p' = .pushNotify := by
  cases hn <;> simp_all

theorem Next.idles (hn : Next s p sig s' .block) :
    s'.queue = [] ∧ s'.running = true := by
  cases hn
  exact ⟨‹_›, ‹_›⟩

theorem Next.sleeps (hn : Next s p sig s' .wait) :
    p = .block ∧ s'.queue = s.queue ∧ s'.running = s.running := by
  cases hn
  exact ⟨rfl, rfl, rfl⟩

theorem Next.keeps_running (hn : Next s p sig s' p') (h : s.running = true) :
    s'.running = true ∨ p' = .stopLock := by
  cases hn <;> simp_all

theorem Next.push_notifies (hn : Next s .pushNotify sig s' p') :
    sig = .one () ∧ p' = .pushUnlock := by
  cases hn
  exact ⟨rfl, rfl⟩

theorem Next.stop_locks (hn : Next s .stopLock sig s' p') : p' = .stopNotify := by
  cases hn
  rfl

theorem Next.stop_notifies (hn : Next s .stopNotify sig s' p') :
    sig = .all () ∧ p' = .stopUnlock := by
  cases hn
  exact ⟨rfl, rfl⟩

theorem woken_ne (h : p ≠ .wake) : ∀ v : Place, (machine.parked v).isSome → machine.woken v ≠ p :=
  fun _ _ => Ne.symm h

@[simp] def Place.waits : Place → Bool
  | .wait => true
  | _ => false

theorem waits_le_one (hx : Machine.Excludes Shared.held Place.inside c) :
    c.threads.countP Place.waits ≤ 1 := by
  have hpops : c.threads.countP Place.waits ≤ c.threads.countP (·.inside .popping) :=
    List.countP_mono_left fun p _ h => by cases p <;> first | rfl | cases h
  exact hpops.trans (hx .popping ▸ Bool.toNat_le _)

/-- At most one thread sleeps, so a `notify_one` leaves none asleep. -/
theorem one_wakes (hx : Machine.Excludes Shared.held Place.inside c)
    (hs : machine.Step c .pushNotify p' c') : .wait ∉ c'.threads := by
  intro hwait
  obtain ⟨ts, us, sig, hts, hn, hw⟩ := hs.inv
  obtain ⟨rfl, rfl⟩ := hn.push_notifies
  obtain ⟨heq, hnone⟩ | ⟨p, hpark, hcount⟩ := hw.one_cases
  · rw [heq] at hwait
    exact hnone _ hwait rfl
  · rw [parked_iff] at hpark
    subst hpark
    have hone := waits_le_one hx
    have hmove := Machine.countP_move hts Place.waits .pushUnlock
    have hpos : 0 < c'.threads.countP Place.waits := List.countP_pos_iff.mpr ⟨_, hwait, rfl⟩
    have hwoken := hcount Place.waits
    simp only [Place.waits, machine, Bool.toNat_true, Bool.toNat_false] at hmove hwoken
    omega

theorem next_of_step (hs : machine.Step c p p' c') : ∃ sig, Next c.shared p sig c'.shared p' := by
  obtain ⟨_, _, sig, _, hn, _⟩ := hs.inv
  exact ⟨sig, hn⟩

theorem stop_wakes (hx : Machine.Excludes Shared.held Place.inside c)
    (hs : machine.Step c .stopNotify p' c') : .block ∉ c'.threads ∧ .wait ∉ c'.threads := by
  obtain ⟨ts, us, sig, hts, hn, hw⟩ := hs.inv
  obtain ⟨rfl, rfl⟩ := hn.stop_notifies
  constructor
  · intro hblock
    obtain hnow | ⟨ts', us', hts', hold⟩ := hs.came hblock (woken_ne nofun)
    · cases hnow
    · have hout : Place.block.inside .mutex = false := hx.alone hts' rfl hold
      cases hout
  · intro hwait
    refine hw.all_parked (fun p hp => ?_) _ hwait rfl
    rw [parked_iff.mp hp]
    exact nofun

-- ---------------------------------------------------------------------------
-- The invariant
-- ---------------------------------------------------------------------------

theorem Asleep.block_step (hx : Machine.Excludes Shared.held Place.inside c)
    (hs : machine.Step c p p' c') (h : Asleep c) (hblock : .block ∈ c'.threads) :
    c'.shared.queue = [] := by
  obtain ⟨sig, hn⟩ := next_of_step hs
  obtain rfl | ⟨ts, us, hts, hold⟩ := hs.came hblock (woken_ne nofun)
  · exact hn.idles.1
  · obtain hempty | ⟨hlocks, -⟩ := hn.fills (h.block (Machine.mem_of_other hts hold))
    · exact hempty
    · have hout : Place.block.inside .mutex = false := hx.alone hts hlocks hold
      cases hout

theorem Asleep.wait_step (hx : Machine.Excludes Shared.held Place.inside c)
    (hs : machine.Step c p p' c') (h : Asleep c) (hwait : .wait ∈ c'.threads) :
    c'.shared.queue = [] ∨ .pushNotify ∈ c'.threads := by
  obtain ⟨sig, hn⟩ := next_of_step hs
  obtain rfl | ⟨ts, us, hts, hold⟩ := hs.came hwait (woken_ne nofun)
  · obtain ⟨rfl, hqueue, -⟩ := hn.sleeps
    exact .inl (hqueue.trans (h.block hs.mover))
  · obtain hempty | hnotify := h.wait (Machine.mem_of_other hts hold)
    · obtain hempty' | ⟨-, rfl⟩ := hn.fills hempty
      · exact .inl hempty'
      · exact .inr (hs.arrives rfl)
    · by_cases hp : p = .pushNotify
      · subst hp
        exact absurd hwait (one_wakes hx hs)
      · exact .inr (hs.stays hnotify (Ne.symm hp) rfl)

theorem Notifying.step (hs : machine.Step c p p' c') (hp : p ≠ .stopNotify)
    (h : c.shared.running = true ∨ Notifying c) : c'.shared.running = true ∨ Notifying c' := by
  obtain ⟨sig, hn⟩ := next_of_step hs
  obtain hruns | hlock | hnotify := h
  · obtain hruns | rfl := hn.keeps_running hruns
    · exact .inl hruns
    · exact .inr (.inl (hs.arrives rfl))
  · by_cases hmove : p = .stopLock
    · subst hmove
      obtain rfl := hn.stop_locks
      exact .inr (.inr (hs.arrives rfl))
    · exact .inr (.inl (hs.stays hlock (Ne.symm hmove) rfl))
  · exact .inr (.inr (hs.stays hnotify (Ne.symm hp) rfl))

theorem Asleep.runs_step (hx : Machine.Excludes Shared.held Place.inside c)
    (hs : machine.Step c p p' c') (h : Asleep c) (hmem : .block ∈ c'.threads ∨ .wait ∈ c'.threads) :
    c'.shared.running = true ∨ Notifying c' := by
  obtain ⟨sig, hn⟩ := next_of_step hs
  by_cases hp : p = .stopNotify
  · subst hp
    obtain ⟨hblock, hwait⟩ := stop_wakes hx hs
    exact absurd hmem (not_or.mpr ⟨hblock, hwait⟩)
  · obtain hblock | hwait := hmem
    · obtain rfl | ⟨ts, us, hts, hold⟩ := hs.came hblock (woken_ne nofun)
      · exact .inl hn.idles.2
      · exact Notifying.step hs hp (h.runs (.inl (Machine.mem_of_other hts hold)))
    · obtain rfl | ⟨ts, us, hts, hold⟩ := hs.came hwait (woken_ne nofun)
      · obtain ⟨rfl, -, -⟩ := hn.sleeps
        exact Notifying.step hs hp (h.runs (.inl hs.mover))
      · exact Notifying.step hs hp (h.runs (.inr (Machine.mem_of_other hts hold)))

theorem asleep (hr : machine.Reachable Ok (start n) c) : Asleep c := by
  refine hr.invariant ⟨?_, ?_, ?_⟩ fun c p p' c' hr _ hs h => ?_
  · simp [start]
  · simp [start]
  · simp [start]
  · have hx := lock.excludes start_excludes hr
    exact ⟨h.block_step hx hs, h.wait_step hx hs, h.runs_step hx hs⟩

/-- While the log thread sleeps and no `push` is in progress, the queue is empty, and `stop` was
not called or has yet to notify. -/
theorem sleeps_only_idle (hr : machine.Reachable Machine.Any (start n) c)
    (hwait : .wait ∈ c.threads) (hpush : ∀ p ∈ c.threads, p.pushing = false) :
    c.shared.queue = [] ∧ (c.shared.running = true ∨ Notifying c) := by
  have h := asleep hr
  refine ⟨?_, h.runs (.inr hwait)⟩
  obtain hempty | hnotify := h.wait hwait
  · exact hempty
  · cases hpush _ hnotify

theorem sleeps_only_idle_started : ([] : List LogMessage) = [] ∧ (true = true ∨ Notifying
    ⟨⟨[], true, false, .runs, [], [], []⟩, [.started, .wait, .out]⟩) := by
  have hstarted : machine.Reachable Machine.Any (start 1)
      ⟨⟨[], true, false, .runs, [], [], []⟩, [.started, .unborn, .out]⟩ :=
    Machine.Reachable.start.path [] [_, _] (.step .runStore (.step (.runSpawn rfl) .refl))
      fun _ _ _ => trivial
  exact sleeps_only_idle (hstarted.path [_] [_] (.step (.born rfl) (.step (.loopRuns rfl)
    (.step (.bodyLock rfl) (.step (.idle rfl rfl) (.step .wait .refl))))) fun _ _ _ => trivial)
    (by simp) (by simp)

-- ---------------------------------------------------------------------------
-- The join
-- ---------------------------------------------------------------------------

@[simp] def Place.stopping : Place → Bool
  | .stopLock | .stopNotify | .stopUnlock | .stopJoin => true
  | _ => false

def Stopping (s : Shared) (p : Place) : Prop := p.stopping = true → s.running = false

theorem Next.stays_stopped (hn : Next s p sig s' p') (hp : p.isMain = false)
    (h : s.running = false) : s'.running = false := by
  cases hn <;> first | exact h | cases hp

theorem stopping_outline : machine.Outline Ok Place.inside Stopping where
  own _ hn h := by
    unfold Stopping at *
    cases hn <;> simp_all
  others {_ _ _ _ _ u} hn _ hu hapart h := by
    have hmain : u.isMain = true := by cases u <;> first | rfl | cases h
    exact hn.stays_stopped (hapart .main hmain).1 (hu h)
  woken hp _ := by
    rw [parked_isSome.mp hp]
    exact nofun

theorem stopping_start : ∀ p ∈ (start n).threads, Stopping (start n).shared p := by
  intro p _ _
  rfl

/-- `stop` never joins a log thread that sleeps. -/
theorem join_awake (hr : machine.Reachable Ok (start n) c) (hjoin : .stopJoin ∈ c.threads) :
    .wait ∉ c.threads := by
  intro hwait
  have hx := lock.excludes start_excludes hr
  have hstopped : Stopping c.shared .stopJoin :=
    stopping_outline.holds lock start_excludes stopping_start hr _ hjoin
  obtain ⟨ts, us, hts⟩ := List.append_of_mem hjoin
  obtain hruns | hlock | hnotify := (asleep hr).runs (.inr hwait)
  · cases hruns.symm.trans (hstopped rfl)
  · cases hx.only (k := .main) hts rfl hlock rfl
  · cases hx.only (k := .main) hts rfl hnotify rfl

end GateServer.LogQueue
