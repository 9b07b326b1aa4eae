import GateServer.Server

/-!
# When the deadline closes a connection

The timer runs from the construction of the connection, not from the accept, so a client
that comes late has less than 60 seconds. Whether a wait can be over early is determined
when it is begun, when both the accept and the expiry are known.
-/

namespace GateServer.Server

open Interact HttpConnection

variable {libs : Libs} {iterate : Params → Params} {conn conn' : Connection}

/-- The deadline has never closed the socket within 60 seconds of the accept. -/
def NeverEarly (conn : Connection) : Prop :=
  ∀ t ∈ conn.closed, ∃ a, conn.accepted = some a ∧ a + seconds 60 ≤ t

/-- A wait begun now ends at least 60 seconds after the accept. -/
def FullMinute (now : Nat) (conn : Connection) : Prop :=
  ∃ a, conn.accepted = some a ∧ a + seconds 60 ≤ max conn.deadline.expiry now

def BeginsLate (now : Nat) (conn : Connection) : ConnectionEvent → Prop
  | .read _ _ tr => waits tr ≠ 0 → FullMinute now conn
  | _ => True

structure OnTime (now : Nat) (conn : Connection) : Prop where
  /-- Before the accept there is nothing but the accept. -/
  fresh : conn.accepted = none → conn.reading = false ∧ conn.deadline.begun = []
  posted : conn.accepting = true → conn.accepted = none
  punctual : conn.deadline.Punctual now
  full : ∀ b ∈ conn.deadline.begun, FullMinute b conn
  closed : NeverEarly conn

theorem onTime_posted (now : Nat) : OnTime now (.posted now) where
  fresh _ := ⟨rfl, rfl⟩
  posted _ := rfl
  punctual := Timer.punctual_set ..
  full := nofun
  closed := nofun

theorem OnTime.pass (h : OnTime now conn) (hle : now ≤ now') : OnTime now' conn :=
  { h with punctual := h.punctual.mono hle }

/-- A connection that has just been accepted has no wait and was never closed. -/
theorem OnTime.accept (h : OnTime now conn) (haccepting : conn.accepting = true)
    (hacc : conn'.accepted = some now) (hno : conn'.accepting = false)
    (hd : conn'.deadline = conn.deadline) (hc : conn'.closed = conn.closed) :
    OnTime now conn' := by
  have hnone := h.posted haccepting
  have hbegun := (h.fresh hnone).2
  refine ⟨fun hnone' => ?_, fun hacc' => ?_, hd ▸ h.punctual, fun b hb => ?_, fun t ht => ?_⟩
  · cases hacc.symm.trans hnone'
  · cases hno.symm.trans hacc'
  · rw [hd, hbegun] at hb
    cases hb
  · rw [hc] at ht
    obtain ⟨a, ha, -⟩ := h.closed t ht
    cases hnone.symm.trans ha

theorem OnTime.moves (h : OnTime now conn) (hlate : BeginsLate now conn ev)
    (hm : conn.Moves libs iterate now ev conn') : OnTime now conn' := by
  cases hm with
  | acceptFailed => exact { h with posted := nofun }
  | accepted haccepting => exact h.accept haccepting rfl rfl rfl rfl
  | startThrew haccepting => exact h.accept haccepting rfl rfl rfl rfl
  | read hreading hrun _ =>
    refine ⟨fun hnone => ?_, h.posted, h.punctual.wait _, fun b hb => ?_, h.closed⟩
    · cases hreading.symm.trans (h.fresh hnone).1
    · rcases Timer.mem_begun_wait hb with hb | ⟨rfl, hwaits⟩
      · exact h.full b hb
      · exact hlate hwaits
  | written =>
    refine ⟨fun hnone => ?_, h.posted, h.punctual.cancel, fun b hb => ?_, h.closed⟩
    · obtain ⟨hreading, hbegun⟩ := h.fresh hnone
      refine ⟨hreading, List.eq_nil_iff_forall_not_mem.mpr fun b hb => ?_⟩
      simpa [hbegun] using Timer.mem_begun_cancel hb
    · exact h.full b (Timer.mem_begun_cancel hb)
  | expired hle =>
    refine ⟨fun hnone => ?_, h.posted, h.punctual.expire hle, fun b hb => ?_, h.closed⟩
    · obtain ⟨hreading, hbegun⟩ := h.fresh hnone
      refine ⟨hreading, List.eq_nil_iff_forall_not_mem.mpr fun b hb => ?_⟩
      simpa [hbegun] using Timer.mem_begun_expire.mp hb
    · exact h.full b (Timer.mem_begun_expire.mp hb)
  | deadline hdue =>
    obtain ⟨a, ha, hfull⟩ := h.full _ (List.mem_append_right _ hdue)
    refine ⟨fun hnone => ?_, h.posted, h.punctual.run _, fun b hb => ?_, fun t ht => ?_⟩
    · cases ha.symm.trans hnone
    · exact h.full b (Timer.mem_begun_run hb)
    · rcases List.mem_append.mp ht with ht | ht
      · exact h.closed t ht
      · cases List.mem_singleton.mp ht
        exact ⟨a, ha, hfull.trans (h.punctual.le hdue)⟩

-- ---------------------------------------------------------------------------
-- Runs
-- ---------------------------------------------------------------------------

theorem onTime (hr : (connections libs iterate).Reachable BeginsLate (strat libs iterate t₀) c) :
    ∀ conn ∈ c.things, OnTime c.now conn := by
  refine hr.each onTime_posted (fun _ _ _ hle h => h.pass hle)
    (fun _ _ _ _ hlate hm h => h.moves hlate hm) ?_
  intro conn hconn
  cases List.mem_singleton.mp hconn
  exact onTime_posted t₀

/-- A wait without the full 60 seconds can end early: the timer expires, and its handler runs
at once. -/
theorem early_of_begun {xs ys : List Connection}
    (hr : (connections libs iterate).Reachable Kind.Any c₀ ⟨now, xs ++ conn :: ys⟩)
    (hbegun : now ∈ conn.deadline.waiting) (hno : ¬ FullMinute now conn) :
    ∃ c, (connections libs iterate).Reachable Kind.Any c₀ c ∧
      ∃ conn' ∈ c.things, ¬ NeverEarly conn' := by
  have hexpired := (hr.pass (le_max_right conn.deadline.expiry now)).move
    (.expired (le_max_left ..)) trivial
  have hclosed := hexpired.move (.deadline (List.mem_append_right _ hbegun)) trivial
  refine ⟨_, hclosed, _, List.mem_append_right _ (.head _), fun h => hno ?_⟩
  exact h (max conn.deadline.expiry now) (List.mem_append_right _ (.head _))

theorem begun_of_not_beginsLate (hm : conn.Moves libs iterate now ev conn')
    (hno : ¬ BeginsLate now conn ev) : now ∈ conn'.deadline.waiting ∧ ¬ FullMinute now conn' := by
  cases hm with
  | read hreading hrun hdef =>
    simp only [BeginsLate, Classical.not_imp] at hno
    refine ⟨?_, hno.2⟩
    simp [Timer.wait, hno.1]
  | _ => exact absurd trivial hno

/-- If each wait is begun late enough, the deadline closes no connection early, and after a
wait begun too early there is a run in which it does. -/
theorem deadline_never_early_iff :
    (∀ c, (connections libs iterate).Reachable BeginsLate (strat libs iterate t₀) c →
      ∀ conn ∈ c.things, NeverEarly conn) ∧
    ∀ c c' conn ev, (connections libs iterate).Step c (some (conn, ev)) c' →
      ¬ BeginsLate c.now conn ev → ∃ c'', (connections libs iterate).Reachable Kind.Any c' c'' ∧
        ∃ conn ∈ c''.things, ¬ NeverEarly conn := by
  refine ⟨fun c hr conn hconn => (onTime hr conn hconn).closed, ?_⟩
  intro c c' conn ev hs hno
  cases hs with
  | move hm =>
    obtain ⟨hbegun, hshort⟩ := begun_of_not_beginsLate hm hno
    exact early_of_begun .start hbegun hshort

theorem deadline_never_early_iff_prompt : ∃ c,
    (connections (.ofBodies []) id).Reachable BeginsLate (strat (.ofBodies []) id 0) c ∧
    c.things.map (·.closed) = [[seconds 60], []] ∧ ∀ conn ∈ c.things, NeverEarly conn := by
  have hrun : Runs (onRead (.ofBodies []) id none ⟨.other "PUT", [47], 11, ""⟩)
      [⟨.asyncWait, ()⟩] (.ret ()) := .call _ .refl
  have hstart : (connections (.ofBodies []) id).Reachable BeginsLate (strat (.ofBodies []) id 0)
      ⟨0, [] ++ .posted 0 :: []⟩ := .start
  have haccept : Connection.Moves (.ofBodies []) id 0 (.posted 0) (.accepted true) _ :=
    .accepted rfl
  have hread := (hstart.move haccept trivial).move (.read rfl hrun trivial)
    fun _ => ⟨0, rfl, by decide⟩
  have hexpired := (hread.pass (Nat.zero_le (seconds 60))).move (.expired (by decide)) trivial
  have hclosed := hexpired.move (.deadline (.head _)) trivial
  exact ⟨_, hclosed, rfl, deadline_never_early_iff.1 _ hclosed⟩

/-- A client comes 59 seconds after the accept was posted and sends its request at once. -/
theorem deadline_closes_early : ¬ ∀ c,
    (connections (.ofBodies []) id).Reachable Kind.Any (strat (.ofBodies []) id 0) c →
      ∀ conn ∈ c.things, NeverEarly conn := by
  intro hclaim
  have hrun : Runs (onRead (.ofBodies []) id none ⟨.get, [47], 11, ""⟩)
      [⟨.op (.push .warn ("GET request to unregistered path: " ++ Bytes.text [47])), ()⟩,
        ⟨.text "url not found\r\n", ()⟩,
        ⟨.writeResponse ⟨11, false, .notFound, some "text/plain", none⟩, ()⟩, ⟨.asyncWait, ()⟩]
      (.ret ()) := .call _ (.call _ (.call _ (.call _ .refl)))
  have hlate : (connections (.ofBodies []) id).Reachable Kind.Any (strat (.ofBodies []) id 0)
      ⟨seconds 59, [] ++ .posted 0 :: []⟩ := Kind.Reachable.start.pass (Nat.zero_le _)
  have haccept : Connection.Moves (.ofBodies []) id (seconds 59) (.posted 0) (.accepted true) _ :=
    .accepted rfl
  have hread := (hlate.move haccept trivial).move (.read rfl hrun trivial) trivial
  obtain ⟨c, hr, conn, hconn, hearly⟩ := early_of_begun hread (by decide) <| by
    rintro ⟨a, ⟨⟩, hle⟩
    exact absurd hle (by decide)
  exact hearly (hclaim c hr conn hconn)

end GateServer.Server
