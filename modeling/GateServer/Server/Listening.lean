import GateServer.Server

/-!
# The chain of accepts

One accept is outstanding as long as each completion handler posts the next. It does so by
calling `strat`, on its error branch and after `start`; an exception on either branch is
swallowed, and no accept is posted afterwards.
-/

namespace GateServer.Server

open Interact HttpConnection

variable {libs : Libs} {iterate : Params → Params} {conn conn' : Connection}

/-- One accept is outstanding, and no connection was started twice. -/
def Listening (c : Crowd Connection) : Prop :=
  c.things.countP (·.accepting) = 1 ∧ ∀ conn ∈ c.things, conn.starts ≤ 1

/-- Neither `start` nor `strat` throws in the completion handler of an accept. -/
def Reposts (_ : Nat) (_ : Connection) : ConnectionEvent → Prop
  | .acceptFailed reposted | .accepted reposted => reposted = true
  | .startThrew => False
  | _ => True

def StartsOnce (conn : Connection) : Prop :=
  conn.starts ≤ 1 ∧ (conn.accepting = true → conn.starts = 0)

theorem StartsOnce.moves (hm : conn.Moves libs iterate now ev conn') (h : StartsOnce conn) :
    StartsOnce conn' := by
  obtain ⟨hle, hzero⟩ := h
  cases hm with
  | acceptFailed => exact ⟨hle, nofun⟩
  | accepted haccepting => exact ⟨by simp [hzero haccepting], nofun⟩
  | startThrew haccepting => exact ⟨by simp [hzero haccepting], nofun⟩
  | _ => exact ⟨hle, hzero⟩

theorem startsOnce (hr : (connections libs iterate).Reachable Ok (strat libs iterate t₀) c) :
    ∀ conn ∈ c.things, StartsOnce conn := by
  refine hr.each (I := fun _ => StartsOnce) (fun _ => ⟨Nat.zero_le _, fun _ => rfl⟩)
    (fun _ _ _ _ h => h) (fun _ _ _ _ _ hm h => h.moves hm) ?_
  intro conn hconn
  cases List.mem_singleton.mp hconn
  exact ⟨Nat.zero_le _, fun _ => rfl⟩

-- ---------------------------------------------------------------------------
-- The number of accepts
-- ---------------------------------------------------------------------------

def ofAccept : ConnectionEvent → Bool
  | .acceptFailed _ | .accepted _ | .startThrew => true
  | _ => false

theorem accepting_moves (hm : conn.Moves libs iterate now ev conn') :
    conn.accepting.toNat = (ofAccept ev).toNat + conn'.accepting.toNat := by
  cases hm <;> simp_all [ofAccept]

theorem posts_of_reposts (h : Reposts now conn ev) : posts ev = ofAccept ev := by
  cases ev <;> simp_all [Reposts, posts, ofAccept]

theorem not_reposts (h : ¬ Reposts now conn ev) : posts ev = false ∧ ofAccept ev = true := by
  cases ev <;> simp_all [Reposts, posts, ofAccept]

theorem accepting_offspring (now : Nat) (ev : ConnectionEvent) :
    ((connections libs iterate).offspring now ev).countP (·.accepting) = (posts ev).toNat := by
  unfold Kind.offspring
  cases h : posts ev <;> simp [connections, h, Connection.posted]

/-- Each handler removes one outstanding accept and adds those it posts. -/
theorem accepting_step (hs : (connections libs iterate).Step c (some (conn, ev)) c') :
    c'.things.countP (·.accepting) + (ofAccept ev).toNat =
      c.things.countP (·.accepting) + (posts ev).toNat := by
  obtain ⟨conn', hm, -, hcount⟩ := hs.countP (·.accepting)
  rw [accepting_moves hm, accepting_offspring] at hcount
  omega

theorem listening (hr : (connections libs iterate).Reachable Reposts (strat libs iterate t₀) c) :
    c.things.countP (·.accepting) = 1 := by
  induction hr with
  | start => rfl
  | @step c who c' _ hok hs ih =>
    cases who with
    | none =>
      cases hs
      exact ih
    | some move =>
      obtain ⟨conn, ev⟩ := move
      have hcount := accepting_step hs
      rw [posts_of_reposts (hok conn ev rfl), ih] at hcount
      exact Nat.add_right_cancel hcount

theorem posts_le (ev : ConnectionEvent) : (posts ev).toNat ≤ (ofAccept ev).toNat := by
  cases ev with
  | acceptFailed reposted => exact Bool.toNat_le reposted
  | accepted reposted => exact Bool.toNat_le reposted
  | startThrew => exact Nat.zero_le _
  | _ => exact Nat.le_refl _

/-- A server without an outstanding accept never has one again. -/
theorem deaf (h : c₀.things.countP (·.accepting) = 0)
    (hr : (connections libs iterate).Reachable Ok c₀ c) :
    c.things.countP (·.accepting) = 0 := by
  induction hr with
  | start => exact h
  | @step c who c' _ _ hs ih =>
    cases who with
    | none =>
      cases hs
      exact ih
    | some move =>
      obtain ⟨conn, ev⟩ := move
      have hcount := accepting_step hs
      have hposts := posts_le ev
      omega

/-- While neither `start` nor `strat` throws, exactly one accept is outstanding after each
handler; after a handler in which one of them throws there is never one again. -/
theorem keeps_listening_iff :
    (∀ c, (connections libs iterate).Reachable Reposts (strat libs iterate t₀) c → Listening c) ∧
    ∀ c c' conn ev, (connections libs iterate).Reachable Reposts (strat libs iterate t₀) c →
      (connections libs iterate).Step c (some (conn, ev)) c' → ¬ Reposts c.now conn ev →
      ∀ c'', (connections libs iterate).Reachable Kind.Any c' c'' → ¬ Listening c'' := by
  refine ⟨fun c hr => ⟨listening hr, fun conn hconn => (startsOnce hr conn hconn).1⟩, ?_⟩
  intro c c' conn ev hr hs hno c'' hr' hlistening
  have hcount := accepting_step hs
  obtain ⟨hposts, hof⟩ := not_reposts hno
  rw [listening hr, hposts, hof] at hcount
  have hdeaf := deaf (Nat.add_right_cancel hcount) hr'
  cases hdeaf.symm.trans hlistening.1

theorem keeps_listening_next : Listening
    ⟨0, [{ Connection.posted 0 with accepting := false, accepted := some 0, starts := 1,
                                    reading := true }, .posted 0]⟩ := by
  have hstep : (connections (.ofBodies []) id).Step ⟨0, [] ++ .posted 0 :: []⟩
      (some (.posted 0, .accepted true)) ⟨0, [] ++ _ :: ([] ++ [.posted 0])⟩ :=
    .move (.accepted rfl)
  refine keeps_listening_iff.1 _ (.step .start (fun conn ev hwho => ?_) hstep)
  cases hwho
  rfl

/-- The first client is accepted, and `start` throws. -/
theorem listening_ends : ∃ c,
    (connections (.ofBodies []) id).Reachable Kind.Any (strat (.ofBodies []) id 0) c ∧
      ¬ Listening c := by
  have hstart : (connections (.ofBodies []) id).Reachable Kind.Any (strat (.ofBodies []) id 0)
      ⟨0, [] ++ .posted 0 :: []⟩ := .start
  refine ⟨_, hstart.move (.startThrew rfl) trivial, ?_⟩
  rintro ⟨hone, -⟩
  cases hone

end GateServer.Server
