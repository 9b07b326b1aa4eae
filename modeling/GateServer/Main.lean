import GateServer.LogQueue
import GateServer.Interact.Expansion

/-!
# Shutdown

`main` runs and stops the log queue and also pushes to it, so it plays two of the queue's
threads. It leaves its `try` block by an exception, whose handler stops the queue, or by
the return of `ioc.run()`, after which nothing stops it.
-/

namespace GateServer.Main

open Interact LogQueue

/-- `due` is a ghost field: what had been pushed when `main` left its `try` block. -/
structure Shared where
  log : LogQueue.Shared
  due : List LogMessage

/-- `call` is inside `run` or `stop`, `push` inside a `push` of the named block. -/
inductive Place
  | call (p : LogQueue.Place)
  | tried
  | caught (what : String)
  | logged
  | push (p : LogQueue.Place) (caught : Bool)
  | left
  | returned
  | failed
  | other (p : LogQueue.Place)

/-- After `run`, everything in the `try` block can throw except a push; the constructor of the
Redis pool pushes. -/
inductive Next : Shared → Place → Signal Unit → Shared → Place → Prop
  | call : LogQueue.Next s.log p sig log p' → p ≠ .started →
      Next s (.call p) sig { s with log := log } (.call p')
  | runReturns : Next s (.call .started) .quiet s .tried
  | pushCall : Next s .tried .quiet s (.push (.pushLock message) false)
  | push : LogQueue.Next s.log p sig log p' → p ≠ .out →
      Next s (.push p caught) sig { s with log := log } (.push p' caught)
  | pushReturns : Next s (.push .out false) .quiet s .tried
  | leave : Next s .tried .quiet { s with due := s.log.entered } .left
  | returns : Next s .left .quiet s .returned
  | throws : Next s .tried .quiet { s with due := s.log.entered } (.caught what)
  | logCall : Next s (.caught what) .quiet s
      (.push (.pushLock (.error, "Exception occurred: " ++ what)) true)
  | logReturns : Next s (.push .out true) .quiet s .logged
  | stopCall : LogQueue.Next s.log .started sig log p' →
      Next s .logged sig { s with log := log } (.call p')
  | fails : Next s (.call .stopped) .quiet s .failed
  | other : LogQueue.Next s.log p sig log p' →
      Next s (.other p) sig { s with log := log } (.other p')

/-- The threads of the log queue that this thread plays. -/
def Place.roles : Place → List LogQueue.Place
  | .call p => [p, .out]
  | .push p _ => [.started, p]
  | .tried | .caught _ | .logged | .left | .returned => [.started, .out]
  | .failed => [.stopped, .out]
  | .other p => [p]

def machine : Machine Shared Place Unit where
  next := Next
  parked
    | .call p | .push p _ | .other p => LogQueue.machine.parked p
    | _ => none
  woken
    | .call p => .call (LogQueue.machine.woken p)
    | .push p caught => .push (LogQueue.machine.woken p) caught
    | .other p => .other (LogQueue.machine.woken p)
    | p => p

def start (n : Nat) : Monitor Shared Place :=
  ⟨⟨(LogQueue.start n).shared, []⟩,
    .call .runStore :: .other .unborn :: List.replicate n (.other .out)⟩

-- ---------------------------------------------------------------------------
-- The log queue inside
-- ---------------------------------------------------------------------------

def queueOf (c : Monitor Shared Place) : Monitor LogQueue.Shared LogQueue.Place :=
  Machine.expanded Shared.log Place.roles c

theorem out_unparked : LogQueue.machine.parked .out = none := rfl

theorem started_unparked : LogQueue.machine.parked .started = none := rfl

theorem Place.parked_roles (p : Place) :
    (machine.parked p = none ∧ ∀ q ∈ p.roles, LogQueue.machine.parked q = none) ∨
    ∃ before q after cv, p.roles = before ++ q :: after ∧ machine.parked p = some cv ∧
      LogQueue.machine.parked q = some cv ∧
      (machine.woken p).roles = before ++ LogQueue.machine.woken q :: after ∧
      ∀ u ∈ before ++ after, LogQueue.machine.parked u = none := by
  cases p with
  | call q =>
    cases h : LogQueue.machine.parked q with
    | none => exact .inl ⟨h, by simp [Place.roles, h, out_unparked]⟩
    | some cv => exact .inr ⟨[], q, [.out], cv, rfl, h, h, rfl, by simp [out_unparked]⟩
  | push q caught =>
    cases h : LogQueue.machine.parked q with
    | none => exact .inl ⟨h, by simp [Place.roles, h, started_unparked]⟩
    | some cv => exact .inr ⟨[.started], q, [], cv, rfl, h, h, rfl, by simp [started_unparked]⟩
  | other q =>
    cases h : LogQueue.machine.parked q with
    | none => exact .inl ⟨h, by simp [Place.roles, h]⟩
    | some cv => exact .inr ⟨[], q, [], cv, rfl, h, h, rfl, by simp⟩
  | _ => exact .inl ⟨rfl, by simp [Place.roles, LogQueue.machine]⟩

theorem expansion : machine.Expansion LogQueue.machine Shared.log Place.roles where
  next {s l sig s' l'} hn := by
    cases hn with
    | call hq => exact .inl ⟨[], _, _, [.out], rfl, rfl, hq⟩
    | push hq => exact .inl ⟨[.started], _, _, [], rfl, rfl, hq⟩
    | stopCall hq => exact .inl ⟨[], _, _, [.out], rfl, rfl, hq⟩
    | other hq => exact .inl ⟨[], _, _, [], rfl, rfl, hq⟩
    | pushCall => exact .inl ⟨[.started], _, _, [], rfl, rfl, .pushCall⟩
    | logCall => exact .inl ⟨[.started], _, _, [], rfl, rfl, .pushCall⟩
    | _ => exact .inr ⟨rfl, rfl, rfl⟩
  parked := Place.parked_roles

theorem start_begins : Begins (n + 1) (queueOf (start n)) where
  shared := rfl
  threads := by
    have hothers : (List.replicate n (Place.other .out)).flatMap Place.roles =
        List.replicate n .out := by
      rw [List.flatMap_replicate]
      exact List.flatten_replicate_singleton
    show (LogQueue.Place.runStore :: .out :: .unborn ::
      (List.replicate n (Place.other .out)).flatMap Place.roles).Perm _
    rw [hothers]
    exact (List.Perm.swap ..).cons _

theorem queue_reachable (hr : machine.Reachable Ok (start n) c) :
    LogQueue.machine.Reachable Machine.Any (queueOf (start n)) (queueOf c) :=
  expansion.reachable hr

-- ---------------------------------------------------------------------------
-- What is due
-- ---------------------------------------------------------------------------

@[simp] def stops : LogQueue.Place → Bool
  | .stopStore | .stopLock | .stopNotify | .stopUnlock | .stopJoin | .drainLock | .drainTest
  | .drainUnlock _ | .drainLog _ | .drainEnd | .stopped => true
  | _ => false

@[simp] def Place.isMain : Place → Bool
  | .call p | .other p => p.isMain
  | _ => true

@[simp] def Place.Due (s : Shared) : Place → Prop
  | .left | .returned => s.due <+: s.log.logged
  | .failed => s.due <+: s.log.due
  | .call p => stops p = true → s.due <+: s.log.due
  | _ => True

def Knows (s : Shared) (p : Place) : Prop := s.due <+: s.log.entered ∧ p.Due s

/-- Everything pushed has been logged when `ioc.run()` returns. -/
def LeavesFlushed (c : Monitor Shared Place) (_ p' : Place) : Prop :=
  p' = .left → c.shared.log.entered = c.shared.log.logged

/-- The queue is empty and the log thread has no message when `ioc.run()` returns. -/
def LeavesIdle (c : Monitor Shared Place) (_ p' : Place) : Prop :=
  p' = .left → c.shared.log.queue = [] ∧ ∀ p ∈ (queueOf c).threads, p.carried = []

theorem Next.grows (hn : LogQueue.Next s p sig s' p') :
    s.entered <+: s'.entered ∧ s.logged <+: s'.logged := by
  cases hn with
  | pushQueue => exact ⟨List.prefix_append .., List.prefix_rfl⟩
  | drainLog => exact ⟨List.prefix_rfl, List.prefix_append ..⟩
  | innerLog => exact ⟨List.prefix_rfl, List.prefix_append ..⟩
  | _ => exact ⟨List.prefix_rfl, List.prefix_rfl⟩

theorem Next.stops_before (hn : LogQueue.Next s p sig s' p') (hp : p ≠ .started)
    (h : stops p' = true) : stops p = true ∧ s'.due = s.due := by
  cases hn <;> simp_all

theorem queue_isMain (hn : LogQueue.Next s p sig s' p') : p'.isMain = p.isMain := by
  cases hn <;> rfl

theorem Next.isMain (hn : Next s p sig s' p') : p'.isMain = p.isMain := by
  cases hn with
  | call hq => exact queue_isMain hq
  | other hq => exact queue_isMain hq
  | stopCall hq => exact queue_isMain hq
  | _ => rfl

theorem lock : machine.Lock (fun _ (_ : Unit) => true) fun p _ => p.isMain where
  balance hn _ _ := by rw [hn.isMain]
  woken {p} hp := by
    have hwake {q : LogQueue.Place} (h : (LogQueue.machine.parked q).isSome) :
        (LogQueue.machine.woken q).isMain = q.isMain := by
      rw [LogQueue.parked_isSome.mp h]
      rfl
    funext _
    cases p with
    | call q => exact hwake hp
    | other q => exact hwake hp
    | push => rfl
    | _ => cases hp

theorem start_excludes :
    Machine.Excludes (fun _ (_ : Unit) => true) (fun p _ => p.isMain) (start n) := by
  intro _
  simp [start, List.countP_replicate]

-- ---------------------------------------------------------------------------
-- What is known of it
-- ---------------------------------------------------------------------------

theorem Next.due (hn : Next s p sig s' p') (h : s.due <+: s.log.entered) :
    s'.due <+: s'.log.entered := by
  cases hn with
  | call hq => exact h.trans (Next.grows hq).1
  | push hq => exact h.trans (Next.grows hq).1
  | other hq => exact h.trans (Next.grows hq).1
  | stopCall hq => exact h.trans (Next.grows hq).1
  | leave => exact List.prefix_rfl
  | throws => exact List.prefix_rfl
  | _ => exact h

theorem Knows.own (hok : p' = .left → s.log.entered = s.log.logged) (hn : Next s p sig s' p')
    (h : Knows s p) : Knows s' p' := by
  refine ⟨hn.due h.1, ?_⟩
  cases hn with
  | call hq hp =>
    intro hstops
    obtain ⟨hbefore, hsame⟩ := Next.stops_before hq hp hstops
    exact hsame ▸ h.2 hbefore
  | stopCall hq =>
    cases hq
    exact fun _ => h.1
  | leave => exact hok rfl ▸ List.prefix_rfl
  | returns => exact h.2
  | fails => exact h.2 rfl
  | _ => trivial

theorem Next.outside (hn : Next s p sig s' p') (hp : p.isMain = false) :
    s'.due = s.due ∧ s'.log.due = s.log.due ∧ s.log.logged <+: s'.log.logged := by
  cases hn with
  | call hq => exact ⟨rfl, hq.due_outside hp, (Next.grows hq).2⟩
  | other hq => exact ⟨rfl, hq.due_outside hp, (Next.grows hq).2⟩
  | _ => cases hp

theorem isMain_of_stops (h : stops q = true) : q.isMain = true := by
  cases q <;> first | rfl | cases h

theorem Knows.others (hn : Next s p sig s' p') (hu : Knows s u)
    (hapart : u.isMain = true → p.isMain = false) : Knows s' u := by
  refine ⟨hn.due hu.1, ?_⟩
  obtain ⟨-, hdue⟩ := hu
  cases u with
  | call q =>
    intro hstops
    obtain ⟨hsame, hlog, -⟩ := hn.outside (hapart (isMain_of_stops hstops))
    exact hsame ▸ hlog ▸ hdue hstops
  | left | returned =>
    obtain ⟨hsame, -, hgrows⟩ := hn.outside (hapart rfl)
    rw [Place.Due, hsame]
    exact hdue.trans hgrows
  | failed =>
    obtain ⟨hsame, hlog, -⟩ := hn.outside (hapart rfl)
    rw [Place.Due, hsame, hlog]
    exact hdue
  | _ => trivial

theorem outline : machine.Outline LeavesFlushed (fun p (_ : Unit) => p.isMain) Knows where
  own hok hn h := h.own hok hn
  others hn _ hu hapart := hu.others hn fun h => (hapart () h).1
  woken := by
    rintro p s hp ⟨hentered, hdue⟩
    refine ⟨hentered, ?_⟩
    cases p with
    | call q => exact nofun
    | push => trivial
    | other => trivial
    | _ => cases hp

theorem knows (hr : machine.Reachable LeavesFlushed (start n) c) :
    ∀ p ∈ c.threads, Knows c.shared p := by
  refine outline.holds lock start_excludes (fun p hp => ⟨List.prefix_rfl, ?_⟩) hr
  rcases hp with _ | ⟨_, _ | ⟨_, hp⟩⟩
  · exact nofun
  · trivial
  · obtain ⟨-, rfl⟩ := List.mem_replicate.mp hp
    trivial

-- ---------------------------------------------------------------------------
-- At the end
-- ---------------------------------------------------------------------------

theorem idle_flushed (hr : machine.Reachable Ok (start n) c) (hok : LeavesIdle c p p') :
    LeavesFlushed c p p' := by
  intro hleft
  obtain ⟨hqueue, hcarried⟩ := hok hleft
  obtain ⟨carried, haccount, hcarrier⟩ := account start_begins (queue_reachable hr)
  have hnone : carried = [] := by
    by_contra hne
    obtain ⟨q, hq, heq⟩ := hcarrier hne
    exact hne (heq ▸ hcarried q hq)
  have hqueue' : (queueOf c).shared.queue = [] := hqueue
  rw [hnone, hqueue', List.append_nil, List.append_nil] at haccount
  exact haccount

@[simp] def Place.ended : Place → Bool
  | .returned | .failed => true
  | _ => false

/-- If no message is queued or in hand when `ioc.run()` returns, every message pushed before
`main` left its `try` block is logged when `main` returns, be it 0 or, after an exception, -1.
-/
theorem shutdown_keeps_log (hr : machine.Reachable LeavesIdle (start n) c) (hp : p ∈ c.threads)
    (hended : p.ended = true) : c.shared.due <+: c.shared.log.logged := by
  have hknows := knows (hr.imp fun _ _ _ hr hok => idle_flushed hr hok) p hp
  cases p with
  | returned => exact hknows.2
  | failed =>
    have hstopped : LogQueue.Place.stopped ∈ (queueOf c).threads :=
      List.mem_flatMap.mpr ⟨_, hp, .head _⟩
    have hdrained := (LogQueue.knows start_begins (queue_reachable hr) _ hstopped).drained rfl
    exact hknows.2.trans hdrained
  | _ => cases hended

theorem stay (ts us : List Place) (hr : machine.Reachable LeavesIdle (start n) ⟨s, ts ++ p :: us⟩)
    (hn : Next s p .quiet s' p') (hp : p' ≠ .left) :
    machine.Reachable LeavesIdle (start n) ⟨s', ts ++ p' :: us⟩ :=
  hr.quiet ts us hn fun hleft => absurd hleft hp

theorem shutdown_keeps_log_flushed :
    [((.info, "up") : LogMessage)] <+: [((.info, "up") : LogMessage)] := by
  have hruns := stay [] [_] (stay [] [_] (stay [] [_] (n := 0) .start
    (.call .runStore nofun) nofun) (.call (.runSpawn rfl) nofun) nofun) .runReturns nofun
  have hcalled := stay [] [_] hruns
    (.pushCall : Next _ .tried .quiet _ (.push (.pushLock (.info, "up")) false)) nofun
  have hqueued := stay [] [_] (stay [] [_] hcalled (.push (.pushLock rfl) nofun) nofun)
    (.push .pushQueue nofun) nofun
  have hpushed := stay [] [_] (stay [] [_] (hqueued.notify_nobody [] [_] (.push .pushNotify nofun)
    nofun (by simp [machine, LogQueue.parked_iff])) (.push .pushUnlock nofun) nofun)
    .pushReturns nofun
  have hlocked := stay [_] [] (stay [_] [] (stay [_] [] (stay [_] [] hpushed
    (.other (.born rfl)) nofun) (.other (.loopRuns rfl)) nofun) (.other (.bodyLock rfl)) nofun)
    (.other (.ready (.inl (List.cons_ne_nil _ _)))) nofun
  have hlogged := stay [_] [] (stay [_] [] (stay [_] [] hlocked
    (.other (.innerPop rfl rfl)) nofun) (.other .innerUnlock) nofun) (.other .innerLog) nofun
  have hleft := hlogged.quiet [] [_] .leave fun _ =>
    ⟨rfl, by simp [queueOf, Machine.expanded, Place.roles]⟩
  have hended : Place.returned ≠ .left := by simp
  exact shutdown_keeps_log (stay [] [_] hleft .returns hended) (.head _) rfl

/-- `main` pushes a message, `ioc.run()` returns, and the message is never logged. -/
theorem clean_exit_loses : ∃ c, machine.Reachable Machine.Any (start 0) c ∧
    .returned ∈ c.threads ∧ c.shared.due = [(.info, "up")] ∧ c.shared.log.logged = [] := by
  have hqueued : machine.Reachable Machine.Any (start 0)
      ⟨⟨⟨[(.info, "up")], true, true, .runs, [(.info, "up")], [], []⟩, []⟩,
        [.push .pushNotify false, .other .unborn]⟩ :=
    Machine.Reachable.start.path [] [_] (.step (.call .runStore nofun)
      (.step (.call (.runSpawn rfl) nofun) (.step .runReturns (.step .pushCall
      (.step (.push (.pushLock rfl) nofun) (.step (.push .pushQueue nofun) .refl))))))
      fun _ _ _ => trivial
  have hpushed := hqueued.notify_nobody [] [_] (.push .pushNotify nofun) trivial
    (by simp [machine, LogQueue.parked_iff])
  have hreturned := hpushed.path [] [_] (.step (.push .pushUnlock nofun)
    (.step .pushReturns (.step .leave (.step .returns .refl)))) fun _ _ _ => trivial
  exact ⟨_, hreturned, .head _, rfl, rfl⟩

theorem pops_of_carried {q : LogQueue.Place} (h : q.carried ≠ []) : q.pops = true := by
  cases q <;> first | rfl | exact absurd rfl h

/-- The condition is necessary: otherwise `main` can return before the message is logged. -/
theorem leaving_loses (hr : machine.Reachable Machine.Any (start n) ⟨s, ts ++ .tried :: us⟩)
    (hway : s.log.queue ≠ [] ∨
      ∃ q ∈ (queueOf ⟨s, ts ++ .tried :: us⟩).threads, q.carried ≠ []) :
    ∃ c, machine.Reachable Machine.Any (start n) c ∧ .returned ∈ c.threads ∧
      ¬ c.shared.due <+: c.shared.log.logged := by
  have hreturned := hr.path ts us (.step .leave (.step .returns .refl)) fun _ _ _ => trivial
  refine ⟨_, hreturned, by simp, fun hprefix => ?_⟩
  have hlonger {carried : List LogMessage}
      (heq : s.log.entered = s.log.logged ++ carried ++ s.log.queue)
      (hne : s.log.queue ≠ [] ∨ carried ≠ []) :
      s.log.logged.length < s.log.entered.length := by
    have hpos : 0 < carried.length + s.log.queue.length := by
      obtain h | h := hne
      · exact Nat.add_pos_right _ (List.length_pos_iff.mpr h)
      · exact Nat.add_pos_left (List.length_pos_iff.mpr h) _
    rw [heq, List.append_assoc, List.length_append, List.length_append]
    exact Nat.lt_add_of_pos_right hpos
  have hqueue := queue_reachable hr
  refine absurd hprefix.length_le (Nat.not_le_of_lt ?_)
  obtain hqueued | ⟨q, hq, hcarried⟩ := hway
  · obtain ⟨carried, heq, -⟩ := account start_begins hqueue
    exact hlonger heq (.inl hqueued)
  · have heq := (LogQueue.knows start_begins hqueue q hq).pops (pops_of_carried hcarried)
    exact hlonger heq (.inr hcarried)

end GateServer.Main
