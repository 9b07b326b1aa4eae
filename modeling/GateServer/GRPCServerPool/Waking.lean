import GateServer.GRPCServerPool
import GateServer.Interact.Attending

/-!
# No lost wakeup in `gRPCServerPool`

Until the pool is stopped, no element stays idle in a queue while a thread waits for it
without having been notified.
-/

namespace GateServer.GRPCServerPool

open Interact

/-- On the way to the front of the queue, or about to notify for a pushed element. -/
@[simp] def Place.attends (k : Kind) : Place → Bool
  | .getCheck k' | .getWake k' | .getRetest k' | .getFront k' | .relNotify k' _ => k' == k
  | _ => false

def idle (k : Kind) (s : Shared) : Nat := if s.isStop then 0 else (s.pool k).length

@[simp] def Place.FoundEmpty (s : Shared) : Place → Prop
  | .getBlock k => s.pool k = []
  | _ => True

theorem foundEmpty_outline : machine.Outline Ok (fun t k => t.place.inside k)
    fun s t => t.place.FoundEmpty s where
  own := by
    rintro s _ t t' sig s' - ⟨hn⟩ -
    cases hn <;> simp_all
  others := by
    rintro s l sig s' l' u ⟨hn⟩ - hu hapart
    obtain ⟨place, late, owned⟩ := u
    cases place with
    | getBlock k => exact (hn.pool_outside (hapart k (by simp)).1).trans hu
    | _ => trivial
  woken := by
    rintro s t ht -
    obtain ⟨k, hk⟩ := parked_isSome ht
    rw [woken_of_wait hk]
    trivial

theorem foundEmpty (hr : machine.Reachable Ok (start conns n) c) :
    ∀ t ∈ c.threads, t.place.FoundEmpty c.shared := by
  refine foundEmpty_outline.holds lock start_excludes (fun t ht => ?_) hr
  obtain ⟨-, rfl⟩ := List.mem_replicate.mp ht
  trivial

@[simp] theorem idle_lock (s : Shared) (k' : Kind) : idle k (s.lock k') = idle k s := rfl

@[simp] theorem idle_unlock (s : Shared) (k' : Kind) : idle k (s.unlock k') = idle k s := rfl

theorem idle_pop {s : Shared} (h : s.pool k = conn :: rest) :
    idle k (s.pop k conn rest) = 0 ∨ idle k (s.pop k conn rest) + 1 = idle k s := by
  cases hstop : s.isStop with
  | true => exact .inl (if_pos hstop)
  | false => exact .inr (by simp [idle, Shared.pop, hstop, h])

theorem idle_push {s : Shared} (conn : Conn) : idle k (s.push k conn) ≤ idle k s + 1 := by
  cases hstop : s.isStop with
  | true => simp [idle, hstop]
  | false => simp [idle, Shared.push, hstop]

theorem idle_pop_of_ne {s : Shared} (h : k ≠ k') : idle k (s.pop k' conn rest) = idle k s := by
  simp [idle, Shared.pop, h]

theorem idle_push_of_ne {s : Shared} (h : k ≠ k') : idle k (s.push k' conn) = idle k s := by
  simp [idle, Shared.push, h]

theorem Next.attends (hn : Next s p mv sig s' p') (k : Kind) : idle k s' = 0 ∨
    idle k s' + (p.attends k).toNat ≤ idle k s + (p'.attends k).toNat + sig.wakesOne k := by
  cases hn with
  | @getEmpty _ k' hempty =>
    by_cases hk : k' = k
    · subst hk
      exact .inl (by simp [idle, hempty])
    · exact .inr (by simp [beq_false_of_ne hk])
  | getGivesUp hstop => exact .inl (if_pos hstop)
  | stopStore => exact .inl rfl
  | @getFront conn rest _ k' hpool =>
    by_cases hk : k' = k
    · subst hk
      exact (idle_pop hpool).imp_right fun h => by simp [h]
    · exact .inr (by simp [idle_pop_of_ne (Ne.symm hk), beq_false_of_ne hk])
  | @relPush _ k' conn =>
    by_cases hk : k' = k
    · subst hk
      exact .inr (by simpa using idle_push conn)
    · exact .inr (by simp [idle_push_of_ne (Ne.symm hk)])
  | @relNotify _ k' =>
    by_cases hk : k' = k
    · subst hk
      exact .inr (by simp)
    · exact .inr (by simp [beq_false_of_ne hk])
  | stopStubs => exact .inr (Nat.le_refl _)
  | _ => exact .inr (by simp)

theorem attends (k : Kind) : machine.Attends (fun s t => t.place.FoundEmpty s) k (idle k)
    (·.place.attends k) where
  step := by
    rintro s t sig s' t' ⟨hn⟩ -
    exact hn.attends k
  waits := by
    rintro s t sig s' t' ⟨hn⟩ hp hwaits
    cases parked_iff.mp hwaits
    cases hn with
    | getWait => simp_all [idle, Shared.unlock]
  woken := by
    intro t ht
    have hk := parked_iff.mp ht
    rw [woken_of_wait hk, hk]
    simp
  kept := by
    intro t ht _
    obtain ⟨k', hk⟩ := parked_isSome ht
    simp_all
  leaves := by
    intro t k' ht
    rw [woken_of_wait (parked_iff.mp ht)]
    simp [machine]

/-- While a thread waits without having been notified, the idle stubs are at most as many as
the threads about to take one or to notify; the same holds for the channels. -/
theorem waiter_not_passed_over (hr : machine.Reachable Machine.Any (start conns n) c)
    (hrun : c.shared.isStop = false) (hwaits : ∃ t ∈ c.threads, t.place = .getWait k) :
    (c.shared.pool k).length ≤ count (Place.attends k) c := by
  obtain ⟨t, ht, hplace⟩ := hwaits
  have hidle : idle k c.shared = (c.shared.pool k).length := by simp [idle, hrun]
  rw [← hidle]
  refine (attends k).idle_le (fun c hr => foundEmpty hr) (fun u hu => ?_) hr ht
    (parked_iff.mpr hplace)
  obtain ⟨-, rfl⟩ := List.mem_replicate.mp hu
  nofun

theorem waiter_not_passed_over_pushed : ∃ c : Monitor Shared Thread,
    c.shared.pool .stub = [0] ∧ (c.shared.pool .stub).length ≤ count (Place.attends .stub) c ∧
      ∃ t ∈ c.threads, t.place = .getWait .stub := by
  have hstart : machine.Reachable Machine.Any (start (fun _ => [0]) 2) _ := .start
  have hgot := hstart.path [] [_] (.step
    (.mk (show Next _ .out .stay .quiet _ (.getLock .stub) from .getCall))
    (.step (.mk (.getLock rfl)) (.step (.mk (.getRuns rfl))
    (.step (.mk (.getReady (.inl (by decide)))) (.step (.mk (.getGoes rfl))
    (.step (.mk (.getFront rfl)) (.step (.mk .getUnlock) (.step (.mk .getReturn) .refl))))))))
    fun _ _ _ => trivial
  have hwaits := hgot.path [_] [] (.step
    (.mk (show Next _ .out .stay .quiet _ (.getLock .stub) from .getCall))
    (.step (.mk (.getLock rfl)) (.step (.mk (.getRuns rfl)) (.step (.mk (.getEmpty rfl rfl))
    (.step (.mk .getWait) .refl))))) fun _ _ _ => trivial
  have hpushed := hwaits.path [] [_] (.step
    (.mk (show Next _ .out .stay .quiet _ (.relLock .stub 0) from .relCall))
    (.step (.mk (.relLock rfl)) (.step (.mk (.relRuns rfl)) (.step (.mk .relPush) .refl))))
    fun _ _ _ => trivial
  refine ⟨_, ?_, waiter_not_passed_over hpushed rfl ?_, ?_⟩
  · rfl
  · exact ⟨_, .tail _ (.head _), rfl⟩
  · exact ⟨_, .tail _ (.head _), rfl⟩

end GateServer.GRPCServerPool
