import GateServer.Interact.Expansion
import GateServer.LogSystem.Writing

/-!
# From a push to a line of the file

The thread of the log queue and `stop` call `log` for what they pop, and other threads
call it directly. Here both classes are modelled step by step, with the mutex of the queue
and that of the file.
-/

namespace GateServer.LogSystem.Queued

open Interact LogQueue

structure Shared where
  queue : LogQueue.Shared
  file : LogSystem.Shared

inductive Consumer
  | loop
  | drain

def Consumer.calls : Consumer → LogMessage → LogQueue.Place
  | .loop, message => .innerLog message
  | .drain, message => .drainLog message

def Consumer.returned : Consumer → LogQueue.Place
  | .loop => .innerRelock
  | .drain => .drainLock

/-- In the code of the queue, in `log` for the queue, or in `log` for another thread. -/
inductive Place
  | queue (p : LogQueue.Place)
  | logging (who : Consumer) (message : LogMessage) (q : LogSystem.Place)
  | direct (q : LogSystem.Place)

@[simp] def settled : LogSystem.Place → Bool
  | .write .. | .unlock .. => true
  | _ => false

/-- A message counts as logged from the step that determines what is written for it. -/
inductive Next : Shared → Place → Signal Unit → Shared → Place → Prop
  | queue : LogQueue.Next s.queue p sig queue p' → (∀ who message, p ≠ Consumer.calls who message) →
      Next s (.queue p) sig { s with queue := queue } (.queue p')
  | logCall : Next s (.queue (Consumer.calls who message)) .quiet s
      (.logging who message (.lock message.1 message.2))
  | log : LogSystem.Next s.file q .quiet file q' → q' ≠ .out → settled q' = settled q →
      Next s (.logging who message q) .quiet { s with file := file } (.logging who message q')
  | logSettles : LogSystem.Next s.file q .quiet file q' → settled q = false → settled q' = true →
      Next s (.logging who message q) .quiet
        ⟨{ s.queue with logged := s.queue.logged ++ [message] }, file⟩ (.logging who message q')
  | logReturns : LogSystem.Next s.file q .quiet file .out →
      Next s (.logging who message q) .quiet { s with file := file } (.queue who.returned)
  | direct : LogSystem.Next s.file q .quiet file q' →
      Next s (.direct q) .quiet { s with file := file } (.direct q')

def machine : Machine Shared Place Unit where
  next := Next
  parked
    | .queue p => LogQueue.machine.parked p
    | _ => none
  woken
    | .queue p => .queue (LogQueue.machine.woken p)
    | p => p

def start (file : String) (n m : Nat) : Monitor Shared Place :=
  ⟨⟨(LogQueue.start n).shared, ⟨file, false⟩⟩,
    (LogQueue.start n).threads.map .queue ++ List.replicate m (.direct .out)⟩

-- ---------------------------------------------------------------------------
-- The queue
-- ---------------------------------------------------------------------------

def Place.roles : Place → List LogQueue.Place
  | .queue p => [p]
  | .logging who message q => [if settled q then who.returned else who.calls message]
  | .direct _ => []

def queueOf (c : Monitor Shared Place) : Monitor LogQueue.Shared LogQueue.Place :=
  Machine.expanded Shared.queue Place.roles c

theorem calls_next (s : LogQueue.Shared) (who : Consumer) (message : LogMessage) :
    LogQueue.Next s (who.calls message) .quiet { s with logged := s.logged ++ [message] }
      who.returned := by
  cases who with
  | loop => exact .innerLog
  | drain => exact .drainLog

theorem logged_eq (hn : LogQueue.Next s p sig s' p')
    (hp : ∀ who message, p ≠ Consumer.calls who message) : s'.logged = s.logged := by
  cases hn with
  | innerLog => exact absurd rfl (hp .loop _)
  | drainLog => exact absurd rfl (hp .drain _)
  | _ => rfl

theorem unparked (who : Consumer) (message : LogMessage) (b : Bool) :
    LogQueue.machine.parked (if b then who.returned else who.calls message) = none := by
  cases b <;> cases who <;> rfl

theorem settled_out (hn : LogSystem.Next s q sig s' .out) : settled q = true := by
  cases hn
  rfl

theorem expansion : machine.Expansion LogQueue.machine Shared.queue Place.roles where
  next {s l sig s' l'} hn := by
    cases hn with
    | queue hq => exact .inl ⟨[], _, _, [], rfl, rfl, hq⟩
    | logSettles _ hq hq' =>
      refine .inl ⟨[], _, _, [], rfl, rfl, ?_⟩
      rw [hq, hq']
      exact calls_next ..
    | log _ _ hsettled => exact .inr ⟨rfl, rfl, by simp only [Place.roles, hsettled]⟩
    | logReturns hq => exact .inr ⟨rfl, rfl, by simp only [Place.roles, settled_out hq, if_true]⟩
    | _ => exact .inr ⟨rfl, rfl, rfl⟩
  parked p := by
    cases p with
    | direct => exact .inl ⟨rfl, by simp [Place.roles]⟩
    | logging who message q =>
      refine .inl ⟨rfl, fun p hp => ?_⟩
      rw [List.mem_singleton.mp hp]
      exact unparked ..
    | queue q =>
      cases h : LogQueue.machine.parked q with
      | none => exact .inl ⟨h, by simp [Place.roles, h]⟩
      | some cv => exact .inr ⟨[], q, [], cv, rfl, h, h, rfl, by simp⟩

theorem queueOf_start : queueOf (start file n m) = LogQueue.start n := by
  have hqueue : ((LogQueue.start n).threads.map Place.queue).flatMap Place.roles =
      (LogQueue.start n).threads := by
    rw [List.flatMap_map]
    exact List.flatMap_singleton' _
  have hdirect : (List.replicate m (Place.direct .out)).flatMap Place.roles = [] := by
    simp [Place.roles]
  rw [queueOf, Machine.expanded, start, List.flatMap_append, hqueue, hdirect, List.append_nil]

theorem queue_reachable (hr : machine.Reachable Ok (start file n m) c) :
    LogQueue.machine.Reachable Machine.Any (LogQueue.start n) (queueOf c) := by
  have hstart : queueOf (start file n m) = LogQueue.start n := queueOf_start
  rw [← hstart]
  exact expansion.reachable hr

-- ---------------------------------------------------------------------------
-- The mutex of the file
-- ---------------------------------------------------------------------------

@[simp] def Place.inside : Place → Bool
  | .logging _ _ q | .direct q => q.inside
  | .queue _ => false

theorem lock : machine.Guarded (·.file.locked) Place.inside where
  balance := by
    rintro s p sig s' p' hn - hflag
    cases hn with
    | queue | logCall => rfl
    | log hq | logSettles hq | logReturns hq | direct hq =>
      exact LogSystem.lock.balance hq () hflag
  woken {p} _ := by
    cases p <;> rfl

theorem start_oneInside : Machine.OneInside (·.file.locked) Place.inside (start file n m) := by
  intro
  simp [start, LogQueue.start, List.countP_replicate]

theorem inside_unparked {p : Place} (hin : p.inside = true) : machine.parked p = none := by
  cases p with
  | queue => cases hin
  | _ => rfl

@[simp] def message? : LogSystem.Place → Option LogMessage
  | .out => none
  | .lock level message | .openFile level message | .stamp level message
  | .unlock level message _ => some (level, message)
  | .write call _ => some call.entry

theorem message?_next (hn : LogSystem.Next s q sig s' q') (hq : message? q = some message)
    (hout : q' ≠ .out) : message? q' = some message := by
  cases hn with
  | call => cases hq
  | unlock => exact absurd rfl hout
  | _ => exact hq

@[simp] def Place.Carries : Place → Prop
  | .logging _ message q => message? q = some message
  | _ => True

theorem outline : machine.Outline (K := Unit) Ok (fun p _ => p.inside) fun _ => Place.Carries where
  own {s ts p p' sig s'} _ hn h := by
    cases hn with
    | logCall => rfl
    | log hq hout => exact message?_next hq h hout
    | logSettles hq _ hq' => exact message?_next hq h fun hout => by simp [hout] at hq'
    | _ => trivial
  others _ _ h _ := h
  woken {p s} _ h := by
    cases p with
    | queue => trivial
    | _ => exact h

theorem carries (hr : machine.Reachable Ok (start file n m) c) : ∀ p ∈ c.threads, p.Carries := by
  refine outline.holds lock start_oneInside (fun p hp => ?_) hr
  obtain hp | hp := List.mem_append.mp hp
  · obtain ⟨_, -, rfl⟩ := List.mem_map.mp hp
    trivial
  · obtain ⟨-, rfl⟩ := List.mem_replicate.mp hp
    trivial

-- ---------------------------------------------------------------------------
-- Calls in one step
-- ---------------------------------------------------------------------------

inductive QueuedOp
  | log (queued : Bool) (level : LogLevel) (message : String)

abbrev QueuedAns : QueuedOp → Type
  | .log .. => Option Timestamp

abbrev QueuedEv := Event QueuedAns

structure Written where
  file : String
  logged : List LogMessage

@[simp] def noted (queued : Bool) (message : LogMessage) : List LogMessage :=
  if queued then [message] else []

inductive Acts : Written → QueuedEv → Written → Prop
  | log : LogSystem.Acts file ⟨.log level message, timestamp⟩ file' →
      Acts ⟨file, logged⟩ ⟨.log queued level message, timestamp⟩
        ⟨file', logged ++ noted queued (level, message)⟩

/-- Calls of `log` in one step, marked with whether the message comes from the queue. -/
def arena : Arena QueuedAns Written where
  act := Acts
  env _ _ := False

def tagged (queued : Bool) : Effect LogAns → Effect QueuedAns
  | .act ⟨.log level message, timestamp⟩ => .act ⟨.log queued level message, timestamp⟩
  | .env => .env
  | .none => .none

def effect : Place → Place → Effect QueuedAns
  | .logging _ _ q, .logging _ _ q' => tagged true (LogSystem.effect q q')
  | .direct q, .direct q' => tagged false (LogSystem.effect q q')
  | _, _ => .none

@[simp] def Place.rest : Place → List Char
  | .logging _ _ q | .direct q => q.rest
  | .queue _ => []

def shown (who : Option Place) (s : Shared) : Written :=
  ⟨s.file.file ++ .ofList (who.elim [] Place.rest), s.queue.logged⟩

def view (c : Monitor Shared Place) : Written := shown (Machine.insider Place.inside c) c.shared

theorem makes_direct (h : LogSystem.arena.Makes e file file') :
    arena.Makes (tagged false e) ⟨file, logged⟩ ⟨file', logged⟩ := by
  cases e with
  | none => exact congrArg (Written.mk · logged) h
  | env => exact h
  | act ev =>
    obtain ⟨⟨level, message⟩, timestamp⟩ := ev
    have hacts : Acts ⟨file, logged⟩ ⟨.log false level message, timestamp⟩ ⟨file', logged ++ []⟩ :=
      .log h
    rwa [List.append_nil] at hacts

theorem effect_unsettled (hn : LogSystem.Next s q sig s' q') (h : settled q' = settled q) :
    LogSystem.effect q q' = .none := by
  cases hn with
  | refused | stamp => cases h
  | _ => rfl

theorem effect_settles (hn : LogSystem.Next s q sig s' q') (hq : message? q = some message)
    (h : settled q = false) (h' : settled q' = true) :
    ∃ timestamp, LogSystem.effect q q' = .act ⟨.log message.1 message.2, timestamp⟩ := by
  cases hn with
  | refused | stamp => cases hq; exact ⟨_, rfl⟩
  | put | close => cases h
  | _ => cases h'

theorem Next.makes (hn : Next s p sig s' p') (hp : p.Carries) :
    arena.Makes (effect p p') (shown (some p) s) (shown (some p') s') := by
  cases hn with
  | queue hq hcalls => exact congrArg (Written.mk _) (logged_eq hq hcalls)
  | logCall => rfl
  | direct hq => exact makes_direct hq.makes
  | log hq _ hsettled =>
    have hmakes := hq.makes
    rw [effect_unsettled hq hsettled] at hmakes
    rw [effect, effect_unsettled hq hsettled]
    exact congrArg (Written.mk · _) hmakes
  | logReturns hq =>
    cases hq
    rfl
  | logSettles hq h h' =>
    have hmakes := hq.makes
    obtain ⟨timestamp, heffect⟩ := effect_settles hq hp h h'
    rw [heffect] at hmakes
    rw [effect, heffect]
    exact Acts.log hmakes

theorem Place.rest_outside {p : Place} (h : p.inside = false) : p.rest = [] := by
  cases p with
  | queue => rfl
  | logging | direct => exact LogSystem.Place.rest_outside h

theorem shown_outside (h : p.inside = false) (s : Shared) : shown (some p) s = shown none s := by
  rw [shown, Option.elim, Place.rest_outside h]
  rfl

theorem Next.passes (hn : Next s p sig s' p') (hout : p.inside = false)
    (hout' : p'.inside = false) (who : Option Place) :
    arena.Makes (effect p p') (shown who s) (shown who s') := by
  cases hn with
  | queue hq hcalls => exact congrArg (Written.mk _) (logged_eq hq hcalls)
  | logCall => rfl
  | logReturns hq =>
    cases hq
    cases hout
  | logSettles hq _ hq' =>
    cases hq with
    | call => cases hq'
    | _ => cases hout <;> cases hout'
  | log hq | direct hq =>
    cases hq with
    | call => rfl
    | _ => cases hout <;> cases hout'

theorem shows : machine.Shows arena (fun _ => effect) Place.inside (fun _ => Place.Carries)
    shown where
  stays hp hn _ _ := hn.makes hp
  leaves hp hn _ hout' := by
    rw [← shown_outside hout']
    exact hn.makes hp
  enters hp hn hout _ := by
    rw [← shown_outside hout]
    exact hn.makes hp
  passes _ hn hout hout' := hn.passes hout hout'

theorem refines : machine.Refines arena Ok (fun _ => effect) view (start file n m) :=
  lock.refines (fun _ => inside_unparked) start_oneInside (fun _ => carries) shows

-- ---------------------------------------------------------------------------
-- What a run has written
-- ---------------------------------------------------------------------------

def calls (tr : List QueuedEv) : List LogCall := tr.filterMap fun
  | ⟨.log _ level message, timestamp⟩ => timestamp.map (⟨·, level, message⟩)

def logged (tr : List QueuedEv) : List LogMessage := tr.flatMap fun
  | ⟨.log queued level message, _⟩ => noted queued (level, message)

def Opened : QueuedEv → Prop
  | ⟨.log .., timestamp⟩ => timestamp.isSome

theorem run_written (hr : arena.Run w tr w') :
    w' = ⟨logAll w.file (calls tr), w.logged ++ logged tr⟩ := by
  induction hr with
  | start => simp [calls, logged, logAll]
  | env _ henv => exact henv.elim
  | act _ hact ih =>
    rw [calls, logged, List.filterMap_append, List.flatMap_append, logAll, List.foldl_append]
    cases hact with
    | log hlog =>
      obtain ⟨hfile, hlogged⟩ := Written.mk.inj ih
      cases hlog with
      | opened => simp [hfile, hlogged, calls, logged, logAll]
      | refused => simp [hfile, hlogged, calls, logged, logAll]

theorem logged_sublist (hopen : ∀ ev ∈ tr, Opened ev) :
    (logged tr).Sublist ((calls tr).map LogCall.entry) := by
  induction tr with
  | nil => exact .slnil
  | cons ev tr ih =>
    obtain ⟨⟨queued, level, message⟩, timestamp⟩ := ev
    have hrest := ih fun ev hev => hopen ev (List.mem_cons_of_mem _ hev)
    obtain ⟨timestamp, rfl⟩ := Option.isSome_iff_exists.mp (hopen _ List.mem_cons_self)
    cases queued with
    | true => exact hrest.cons_cons _
    | false => exact hrest.cons _

theorem traced_written (ht : machine.Traced (fun _ => effect) Machine.Any (start file n m) tr c) :
    view c = ⟨logAll file (calls tr), logged tr⟩ := by
  have hrun := run_written (refines.traced ht)
  have hstart : view (start file n m) = ⟨file, []⟩ := by
    rw [view, Machine.insider_none start_oneInside rfl]
    exact congrArg (Written.mk · []) String.append_empty
  rw [hstart] at hrun
  exact hrun

def Place.carried : Place → List LogMessage
  | .queue p => p.carried
  | .logging _ message q => if settled q then [] else [message]
  | .direct _ => []

theorem carried_role {p : Place} (h : role ∈ p.roles) : role.carried = p.carried := by
  cases p with
  | queue => rw [List.mem_singleton.mp h]; rfl
  | direct => cases h
  | logging who message q =>
    rw [List.mem_singleton.mp h, Place.carried]
    cases settled q <;> cases who <;> rfl

/-- Every message that was pushed is in `messages`, carried or queued, and `messages` contains
everything due once `stop` is done. -/
structure FromQueue (messages : List LogMessage) (c : Monitor Shared Place) : Prop where
  account : ∃ carried, c.shared.queue.entered = messages ++ carried ++ c.shared.queue.queue ∧
    (carried ≠ [] → ∃ p ∈ c.threads, p.carried = carried)
  complete : .queue .stopped ∈ c.threads → c.shared.queue.due <+: messages

theorem fromQueue (ht : machine.Traced (fun _ => effect) Machine.Any (start file n m) tr c) :
    FromQueue (logged tr) c := by
  have hr := queue_reachable ht.reachable
  have hlogged : c.shared.queue.logged = logged tr := congrArg Written.logged (traced_written ht)
  rw [← hlogged]
  refine ⟨?_, fun h => ?_⟩
  · obtain ⟨carried, haccount, hcarried⟩ := account start_begins hr
    refine ⟨carried, haccount, fun hne => ?_⟩
    obtain ⟨role, hrole, rfl⟩ := hcarried hne
    obtain ⟨p, hp, hmem⟩ := List.mem_flatMap.mp hrole
    exact ⟨p, hp, (carried_role hmem).symm⟩
  · exact (LogQueue.delivers hr).complete (List.mem_flatMap.mpr ⟨_, h, List.mem_singleton_self _⟩)

/-- The lines that come from the queue are in the order of the pushes, and a message without a
line is carried or still queued. -/
theorem pushed_readBack
    (ht : machine.Traced (fun _ => effect) Machine.Any (start file n m) tr c)
    (hfree : c.shared.file.locked = false) (hopen : ∀ ev ∈ tr, Opened ev)
    (hplain : ∀ call ∈ calls tr, '\n' ∉ call.message.toList) :
    ∃ messages, FromQueue messages c ∧ (messages.map some).Sublist
      ((lines (c.shared.file.file.toList.drop file.length)).map readEntry) := by
  have hfile : c.shared.file.file = logAll file (calls tr) := by
    have hview := congrArg Written.file (traced_written ht)
    rw [view, Machine.insider_none (lock.excludes start_oneInside ht.reachable) hfree] at hview
    exact String.append_empty.symm.trans hview
  have hread := read_appended file hplain
  rw [appended, ← hfile] at hread
  refine ⟨logged tr, fromQueue ht, ?_⟩
  have hsublist := (logged_sublist hopen).map some
  rw [List.map_map] at hsublist
  rw [hread]
  exact hsublist

theorem drain_begun : machine.Traced (fun _ => effect) Machine.Any (start "" 1 0) []
    ⟨⟨⟨[], false, false, .joined, [(.info, "a")], [], [(.info, "a")]⟩, ⟨"", false⟩⟩,
      [.queue (.drainLog (.info, "a")), .queue .ended, .queue .out]⟩ := by
  have hqueued : machine.Traced (fun _ => effect) Machine.Any (start "" 1 0) []
      ⟨⟨⟨[(.info, "a")], false, true, .unborn, [(.info, "a")], [], []⟩, ⟨"", false⟩⟩,
        [.queue .runStore, .queue .unborn, .queue .pushNotify]⟩ :=
    Machine.Traced.start.trail [_, _] [] (.step (.queue .pushCall nofun)
      (.step (.queue (.pushLock rfl) nofun) (.step (.queue .pushQueue nofun) .refl)))
      fun _ _ _ => trivial
  have hpushed := hqueued.moves [_, _] [] (.queue .pushNotify nofun)
    (.nobody (by simp [machine, LogQueue.machine])) trivial
  have hstops := (hpushed.trail [_, _] [] (.step (.queue .pushUnlock nofun) .refl)
    fun _ _ _ => trivial).trail [] [_, _] (.step (.queue .runStore nofun)
      (.step (.queue (.runSpawn rfl) nofun) (.step (.queue .stopCall nofun)
      (.step (.queue .stopStore nofun) (.step (.queue (.stopLock rfl) nofun) .refl)))))
    fun _ _ _ => trivial
  have hjoins := (hstops.moves [] [_, _] (.queue .stopNotify nofun) .all trivial).trail [] [_, _]
    (.step (.queue .stopUnlock nofun) .refl) fun _ _ _ => trivial
  have hended := hjoins.trail [_] [_] (.step (.queue (.born rfl) nofun)
    (.step (.queue (.loopEnds rfl) nofun) .refl)) fun _ _ _ => trivial
  exact hended.trail [] [_, _] (.step (.queue (.stopJoin rfl) nofun)
    (.step (.queue (.drainLock rfl) nofun) (.step (.queue (.drainPop rfl) nofun)
    (.step (.queue .drainUnlock nofun) .refl)))) fun _ _ _ => trivial

theorem pushed_readBack_drained : ∃ messages,
    FromQueue messages ⟨⟨⟨[], false, false, .joined, [(.info, "a")], [(.info, "a")],
      [(.info, "a")]⟩, ⟨"" ++ .ofList (noonCall.line ++ ['\n']), false⟩⟩,
      [.queue .stopped, .queue .ended, .queue .out]⟩ ∧
    (messages.map some).Sublist
      ((lines (("" ++ .ofList (noonCall.line ++ ['\n'])).toList.drop 0)).map readEntry) := by
  have hcall (s : Shared) : Next s (.queue (Consumer.drain.calls (.info, "a"))) .quiet s
      (.logging .drain (.info, "a") (.lock .info "a")) := .logCall
  have hwrites := drain_begun.trail [] [_, _] (.step (hcall _) (.step (.log (.lock rfl) nofun rfl)
    (.step (.log .opened nofun rfl) (.step (.logSettles (.stamp noon) rfl rfl) .refl))))
    fun _ _ _ => trivial
  have hput : LogSystem.Next ⟨"", true⟩ (.write noonCall ((noonCall.line ++ ['\n']) ++ [])) .quiet
      ⟨"" ++ .ofList (noonCall.line ++ ['\n']), true⟩ (.write noonCall []) := .put _
  rw [List.append_nil] at hput
  have hdone := hwrites.trail [] [_, _] (.step (.log hput nofun rfl)
    (.step (.log .close nofun rfl) (.step (.logReturns .unlock)
    (.step (.queue (.drainLock rfl) nofun) (.step (.queue (.drainEmpty rfl) nofun)
    (.step (.queue .drainEnd nofun) .refl)))))) fun _ _ _ => trivial
  exact pushed_readBack hdone rfl
    (by simp [Opened, effect, tagged, LogSystem.effect, Effect.events])
    (by simp [calls, effect, tagged, LogSystem.effect, Effect.events])

end GateServer.LogSystem.Queued
