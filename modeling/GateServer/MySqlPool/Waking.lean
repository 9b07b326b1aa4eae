import GateServer.Interact.Attending
import GateServer.MySqlPool

/-!
# No lost wakeup in `MySqlPool`

A thread woken by `close` can wait again, but no connection stays idle while a thread
waits without having been notified.
-/

namespace GateServer.MySqlPool

open Interact

/-- On the way to a test of the queue, or about to notify for a pushed connection. -/
@[simp] def Place.attends : Place → Bool
  | .getCheck | .getWake | .relNotify _ => true
  | _ => false

def Place.FoundEmpty (s : Shared) (p : Place) : Prop := p = .getBlock → s.conns = []

theorem foundEmpty_outline :
    machine.Outline (K := Unit) Ok (fun p _ => p.inside) fun s p => p.FoundEmpty s where
  own := by
    rintro s _ p p' sig s' - hn -
    cases hn <;> simp_all [Place.FoundEmpty]
  others := by
    rintro s p sig s' p' u hn - hu hapart rfl
    have hout := (hapart () rfl).1
    have hempty := hu rfl
    cases hn <;> simp_all
  woken := by
    rintro s p - -
    nofun

theorem foundEmpty (hr : machine.Reachable Ok (start conns n) c) :
    ∀ p ∈ c.threads, p.FoundEmpty c.shared := by
  refine foundEmpty_outline.holds lock start_oneInside (fun p hp => ?_) hr
  obtain ⟨-, rfl⟩ := List.mem_replicate.mp hp
  nofun

theorem attends : machine.Attends (fun s p => p.FoundEmpty s) () (fun s => s.conns.length)
    Place.attends where
  step := by
    rintro s p sig s' p' hn -
    cases hn with
    | relNotify => exact .inr (Nat.le_refl _)
    | _ => simp_all
  waits := by
    rintro s p sig s' p' hn hp hwaits
    obtain rfl := parked_iff.mp hwaits
    cases hn with
    | getWait => exact congrArg List.length (hp rfl)
  woken := by
    intro p hp
    obtain rfl := parked_iff.mp hp
    exact ⟨rfl, rfl⟩
  kept _ _ := rfl
  leaves _ := nofun

/-- While a thread waits without having been notified, the idle connections are at most as many
as the threads about to look for one or to notify. -/
theorem waiter_not_forgotten (hr : machine.Reachable Machine.Any (start conns n) c)
    (hwaits : .getWait ∈ c.threads) : c.shared.conns.length ≤ count Place.attends c := by
  refine attends.idle_le (fun c hr => foundEmpty hr) (fun p hp => ?_) hr hwaits rfl
  obtain ⟨-, rfl⟩ := List.mem_replicate.mp hp
  nofun

theorem waiter_not_forgotten_pushed :
    1 ≤ count Place.attends ⟨⟨[0], false, true, false⟩, [.relNotify 0, .getWait]⟩ := by
  have hwaits := borrowed.path [_] [] (.step .getCall (.step (.getLock rfl)
    (.step (.getEmpty rfl) (.step .getWait .refl)))) fun _ _ _ => trivial
  have hpushed := hwaits.path [] [_]
    (.step (show Next _ .out .quiet _ (.relLock 0) from .relCall) (.step (.relLock rfl)
    (.step .relPush .refl))) fun _ _ _ => trivial
  exact waiter_not_forgotten hpushed (.tail _ (.head _))

end GateServer.MySqlPool
