import GateServer.Server

/-!
# What the deadline covers

`check_deadline` is called after a request was handled, so the wait on the timer is begun
with the write and not with the read. It covers the write until it closes the socket;
nothing covers the read.
-/

namespace GateServer.Server

open Interact HttpConnection LogicalSystem

variable {libs : Libs} {iterate : Params → Params} {conn conn' : Connection}

/-- An outstanding socket operation has a wait on the timer beside it. -/
def Covered (conn : Connection) : Prop :=
  conn.reading = true ∨ 0 < conn.writing → conn.deadline.begun ≠ []

-- ---------------------------------------------------------------------------
-- What a read handler begins
-- ---------------------------------------------------------------------------

@[simp] def Plain : HttpOp → Prop
  | .writeResponse _ | .asyncWait => False
  | _ => True

def Idle (p : HttpAct α) : Prop :=
  ∀ h, Spec .any h p fun h' _ => ∃ tr, h' = h ++ tr ∧ ∀ ev ∈ tr, Plain ev.op

theorem idle_done (e : Exit α) : Idle (.done e : HttpAct α) := fun _ => ⟨[], by simp, by simp⟩

theorem idle_pure (a : α) : Idle (pure a : HttpAct α) := idle_done (.ret a)

theorem idle_call {next : HttpAns op → HttpAct α} (hop : Plain op) (h : ∀ a, Idle (next a)) :
    Idle (.call op next) := by
  refine fun h₀ => .call fun a => (h a _).mono ?_
  rintro h' e ⟨tr, rfl, htr⟩
  refine ⟨⟨op, a⟩ :: tr, by simp, ?_⟩
  rw [List.forall_mem_cons]
  exact ⟨hop, htr⟩

theorem Idle.bind {p : HttpAct α} {f : α → HttpAct β} (hp : Idle p) (hf : ∀ a, Idle (f a)) :
    Idle (p >>= f) := by
  refine fun h => (hp h).bind ?_
  rintro h' e ⟨tr, rfl, htr⟩
  cases e with
  | ret a =>
    apply (hf a _).mono
    rintro h' e ⟨tr', rfl, htr'⟩
    exact ⟨tr ++ tr', by simp, List.forall_mem_append.mpr ⟨htr, htr'⟩⟩
  | threw w => exact ⟨tr, rfl, htr⟩
  | undef u => exact ⟨tr, rfl, htr⟩

theorem idle_http (p : Act α) : Idle p.http := by
  refine fun h => (spec_http p).mono ?_
  rintro h' e ⟨tr, rfl, -, hops⟩
  refine ⟨tr, rfl, fun ev hev => ?_⟩
  obtain ⟨op, hop⟩ := hops ev hev
  rw [hop]
  trivial

theorem idle_push (level : LogLevel) (message : String) : Idle (pushHttp level message) :=
  idle_call trivial idle_pure

theorem idle_log (level : LogLevel) (message : String) : Idle (logHttp level message) :=
  idle_call trivial idle_pure

theorem idle_text (piece : String) : Idle (askHttp (.text piece)) := idle_call trivial idle_pure

theorem idle_remoteEndpoint : Idle remoteEndpoint := by
  refine idle_call trivial fun ip => ?_
  cases ip with
  | error w => exact idle_done _
  | ok ip => exact idle_done _

theorem idle_printParams (i : Nat) (params : Params) : Idle (printParams i params) := by
  induction params generalizing i with
  | nil => exact idle_pure ()
  | cons p rest ih => exact (idle_text _).bind fun _ => (idle_log _ _).bind fun _ => ih (i + 1)

theorem idle_getTest (params : Params) : Idle (getTest iterate params) :=
  (idle_log _ _).bind fun _ => (idle_text _).bind fun _ => idle_printParams 0 (iterate params)

theorem idle_handleGet (path : String) (params : Params) :
    Idle (handleGet iterate path params) := by
  unfold handleGet
  cases hl : (getHandlers iterate).lookup path with
  | none => exact (idle_push _ _).bind fun _ => idle_pure false
  | some handler =>
    obtain ⟨-, rfl⟩ : path = "/get_test" ∧ handler = getTest iterate := by
      simpa [getHandlers] using mem_of_lookup hl
    exact (idle_push _ _).bind fun _ => (idle_getTest params).bind fun _ => idle_pure true

theorem idle_handlePost (url body : String) : Idle (handlePost libs url body) := by
  unfold handlePost
  cases (postHandlers libs (.ofDao libs)).lookup url with
  | none =>
    exact (idle_push _ _).bind fun _ => idle_remoteEndpoint.bind fun _ =>
      (idle_push _ _).bind fun _ => idle_pure false
  | some handler =>
    exact (idle_push _ _).bind fun _ => idle_remoteEndpoint.bind fun _ =>
      (idle_push _ _).bind fun _ => (idle_http _).bind fun _ => idle_pure true

/-- At most one response and one wait are begun, and no response alone. -/
def Balanced (tr : HttpTrace) : Prop := (written tr).length ≤ waits tr ∧ waits tr ≤ 1

theorem written_of_plain (h : ∀ ev ∈ tr, Plain (Event.op ev)) : written tr = [] := by
  refine filterMap_of_ops (fun op a hop => ?_) h
  cases op <;> first | rfl | cases hop

theorem waits_of_plain (h : ∀ ev ∈ tr, Plain (Event.op ev)) : waits tr = 0 := by
  apply List.countP_eq_zero.mpr
  rintro ⟨op, a⟩ hev
  have hplain := h _ hev
  cases op <;> first | exact False.elim hplain | simp

theorem Balanced.after (h : ∀ ev ∈ tr, Plain (Event.op ev)) (hb : Balanced tr') :
    Balanced (tr ++ tr') := by
  have hwaits : waits (tr ++ tr') = waits tr' := by
    rw [waits, List.countP_append]
    exact (congrArg (· + waits tr') (waits_of_plain h)).trans (Nat.zero_add _)
  rw [Balanced, written_append, written_of_plain h, hwaits]
  exact hb

theorem balanced_of_plain (h : ∀ ev ∈ tr, Plain (Event.op ev)) : Balanced tr := by
  rw [Balanced, written_of_plain h, waits_of_plain h]
  exact ⟨Nat.le_refl _, Nat.zero_le _⟩

theorem balanced_respond (found : Bool) (response response' : HttpResponse)
    (h : ∀ ev ∈ tr, Plain (Event.op ev)) :
    Spec .any tr ((if !found then writeNotFound response else writeResponse response') >>=
      fun _ => checkDeadline) fun h' e => Balanced h' ∧ ∀ w, e ≠ .threw w := by
  cases found with
  | false =>
    refine .call fun _ => .call fun _ => .call fun _ => ⟨?_, nofun⟩
    rw [List.append_assoc, List.append_assoc]
    exact Balanced.after h ⟨Nat.le_refl 1, Nat.le_refl 1⟩
  | true =>
    refine .call fun _ => .call fun _ => ⟨?_, nofun⟩
    rw [List.append_assoc]
    exact Balanced.after h ⟨Nat.le_refl 1, Nat.le_refl 1⟩

/-- Whether or not the table throws, the trace is balanced. -/
theorem balanced_table {p : HttpAct Bool} (hp : Idle p) (response response' : HttpResponse) :
    Spec .any [] (p >>= fun found =>
      (if !found then writeNotFound response else writeResponse response') >>=
        fun _ => checkDeadline) (orElse (fun _ => pure ()) .any fun tr _ => Balanced tr) := by
  apply (hp []).bind
  rintro h e ⟨tr, rfl, htr⟩
  cases e with
  | ret found =>
    apply (balanced_respond found response response' htr).mono
    rintro h' e ⟨hb, hno⟩
    cases e with
    | ret u => exact hb
    | threw w => exact absurd rfl (hno w)
    | undef u => exact hb
  | threw w => exact balanced_of_plain htr
  | undef u => exact balanced_of_plain htr

theorem onRead_balanced (ec : Option String) (request : HttpRequest) :
    Spec .any [] (onRead libs iterate ec request) fun tr _ => Balanced tr := by
  unfold onRead handlereq
  rw [spec_tryCatch]
  cases ec with
  | some ec => exact ⟨Nat.le_refl 0, Nat.zero_le 1⟩
  | none =>
    cases hm : request.method with
    | other name =>
      simp only [Option.isSome_none, Bool.false_eq_true, reduceCtorEq, if_false]
      exact .call fun _ => ⟨Nat.zero_le _, Nat.le_refl 1⟩
    | get =>
      simp only [Option.isSome_none, Bool.false_eq_true, reduceCtorEq, if_false, if_true,
        bind_pure_unit, bind_assoc]
      exact balanced_table (idle_handleGet _ _) _ _
    | post =>
      simp only [Option.isSome_none, Bool.false_eq_true, reduceCtorEq, if_false, if_true,
        bind_pure_unit, bind_assoc]
      exact balanced_table (idle_handlePost _ _) _ _

-- ---------------------------------------------------------------------------
-- The life of a connection
-- ---------------------------------------------------------------------------

structure OneWait (conn : Connection) : Prop where
  /-- Until the read handler runs there is nothing but the accept and the read. -/
  unread : conn.accepting = true ∨ conn.reading = true →
    conn.writing = 0 ∧ conn.deadline.begun = [] ∧ conn.closed = []
  apart : conn.accepting = true → conn.reading = false
  one : conn.deadline.begun.length ≤ 1
  written : conn.writing ≤ 1
  /-- The wait that was begun with a write is not over before the write, unless it has
  closed the socket. -/
  covers : 0 < conn.writing → conn.closed = [] → conn.deadline.begun ≠ []
  shut : conn.closed ≠ [] → conn.deadline.begun = []

theorem oneWait_posted (now : Nat) : OneWait (.posted now) where
  unread _ := ⟨rfl, rfl, rfl⟩
  apart _ := rfl
  one := Nat.zero_le _
  written := Nat.zero_le _
  covers h := absurd h (Nat.lt_irrefl 0)
  shut h := absurd rfl h

theorem OneWait.accepts (h : OneWait conn) (haccepting : conn.accepting = true)
    (hno : conn'.accepting = false) (hw : conn'.writing = conn.writing)
    (hd : conn'.deadline = conn.deadline) (hc : conn'.closed = conn.closed) : OneWait conn' := by
  obtain ⟨hwriting, hbegun, hclosed⟩ := h.unread (.inl haccepting)
  rw [← hw] at hwriting
  rw [← hd] at hbegun
  rw [← hc] at hclosed
  refine ⟨fun _ => ⟨hwriting, hbegun, hclosed⟩, fun hacc => ?_, ?_, ?_, fun hpos => ?_,
    fun _ => hbegun⟩
  · cases hno.symm.trans hacc
  · rw [hbegun]
    exact Nat.zero_le _
  · rw [hwriting]
    exact Nat.zero_le _
  · rw [hwriting] at hpos
    cases hpos

theorem length_wait (timer : Timer) (now count : Nat) :
    (timer.wait now count).begun.length = timer.begun.length + count := by
  simp only [Timer.wait, Timer.begun, List.length_append, List.length_replicate]
  omega

theorem length_expire (timer : Timer) : timer.expire.begun.length = timer.begun.length := by
  simp [Timer.expire, Timer.begun, Nat.add_comm]

theorem length_cancel (timer : Timer) : timer.cancel.begun.length ≤ timer.begun.length := by
  simp [Timer.cancel, Timer.begun]

theorem begun_cancel {timer : Timer} (h : timer.begun = []) : timer.cancel.begun = [] :=
  List.append_eq_nil_iff.mpr ⟨rfl, (List.append_eq_nil_iff.mp h).2⟩

theorem begun_run {timer : Timer} (hdue : b ∈ timer.due) (hone : timer.begun.length ≤ 1) :
    (timer.run b).begun = [] := by
  have herase := List.length_erase_of_mem hdue
  have hpos := List.length_pos_of_mem hdue
  rw [← List.length_eq_zero_iff]
  simp only [Timer.begun, Timer.run, List.length_append] at hone ⊢
  omega

theorem OneWait.moves (h : OneWait conn) (hm : conn.Moves libs iterate now ev conn') :
    OneWait conn' := by
  cases hm with
  | acceptFailed haccepting => exact h.accepts haccepting rfl rfl rfl rfl
  | accepted haccepting => exact h.accepts haccepting rfl rfl rfl rfl
  | startThrew haccepting => exact h.accepts haccepting rfl rfl rfl rfl
  | @read _ _ tr _ _ hreading hrun _ =>
    obtain ⟨hwriting, hbegun, hclosed⟩ := h.unread (.inr hreading)
    obtain ⟨hle, hone⟩ := (onRead_balanced _ _).ends hrun
    have hlength : (conn.deadline.wait now (waits tr)).begun.length = waits tr := by
      rw [length_wait, hbegun, List.length_nil, Nat.zero_add]
    have hunread : ¬ (conn.accepting = true ∨ false = true) := by
      rintro (hacc | hfalse)
      · cases hreading.symm.trans (h.apart hacc)
      · cases hfalse
    refine ⟨fun hread => absurd hread hunread, fun _ => rfl, hlength.trans_le hone, ?_, ?_, ?_⟩
    · show conn.writing + (GateServer.written tr).length ≤ 1
      rw [hwriting, Nat.zero_add]
      exact hle.trans hone
    · intro hpos _
      have hwritten : 0 < (GateServer.written tr).length := by
        simpa [hwriting] using hpos
      exact List.ne_nil_of_length_pos ((hwritten.trans_le hle).trans_eq hlength.symm)
    · exact absurd hclosed
  | written hwriting =>
    have hnone := h.written
    rw [hwriting] at hnone
    have hunread : ¬ (conn.accepting = true ∨ conn.reading = true) := fun hread =>
      nomatch hwriting.symm.trans (h.unread hread).1
    refine ⟨fun hread => absurd hread hunread, h.apart, ?_, Nat.le_of_succ_le hnone, ?_, ?_⟩
    · exact (length_cancel conn.deadline).trans h.one
    · exact fun hpos => absurd hpos (Nat.not_lt_of_le (Nat.le_of_succ_le_succ hnone))
    · exact fun hclosed => begun_cancel (h.shut hclosed)
  | expired hle =>
    have hnil : conn.deadline.expire.begun = [] ↔ conn.deadline.begun = [] := by
      rw [← List.length_eq_zero_iff, length_expire, List.length_eq_zero_iff]
    refine ⟨fun hread => ?_, h.apart, ?_, h.written, fun hpos hclosed => ?_, fun hclosed => ?_⟩
    · obtain ⟨hwriting, hbegun, hclosed⟩ := h.unread hread
      exact ⟨hwriting, hnil.mpr hbegun, hclosed⟩
    · exact (length_expire conn.deadline).trans_le h.one
    · exact fun hbegun => h.covers hpos hclosed (hnil.mp hbegun)
    · exact hnil.mpr (h.shut hclosed)
  | deadline hdue =>
    have hover := begun_run hdue h.one
    have hbegun : conn.deadline.begun ≠ [] :=
      List.ne_nil_of_mem (List.mem_append_right conn.deadline.waiting hdue)
    have hunread : ¬ (conn.accepting = true ∨ conn.reading = true) := fun hread =>
      hbegun (h.unread hread).2.1
    refine ⟨fun hread => absurd hread hunread, h.apart, ?_, h.written, ?_, fun _ => hover⟩
    · exact (congrArg List.length hover).trans_le (Nat.zero_le _)
    · exact fun _ hclosed => absurd hclosed (by simp)

theorem oneWait (hr : (connections libs iterate).Reachable Ok (strat libs iterate t₀) c) :
    ∀ conn ∈ c.things, OneWait conn := by
  refine hr.each (I := fun _ => OneWait) oneWait_posted (fun _ _ _ _ h => h)
    (fun _ _ _ _ _ hm h => h.moves hm) ?_
  intro conn hconn
  cases List.mem_singleton.mp hconn
  exact oneWait_posted t₀

/-- In every reachable state the deadline covers a connection iff no read is outstanding and
it has not closed the socket during an outstanding write. -/
theorem deadline_covers_iff
    (hr : (connections libs iterate).Reachable Kind.Any (strat libs iterate t₀) c)
    (hconn : conn ∈ c.things) :
    Covered conn ↔ conn.reading = false ∧ (0 < conn.writing → conn.closed = []) := by
  have h := oneWait hr conn hconn
  constructor
  · intro hcovered
    constructor
    · cases hreading : conn.reading with
      | false => rfl
      | true => exact absurd (h.unread (.inr hreading)).2.1 (hcovered (.inl hreading))
    · intro hwriting
      by_contra hclosed
      exact hcovered (.inr hwriting) (h.shut hclosed)
  · rintro ⟨hreading, hopen⟩ (hread | hwriting)
    · cases hreading.symm.trans hread
    · exact h.covers hwriting (hopen hwriting)

theorem deadline_covers_write : Covered
    { Connection.posted 0 with
      accepting := false, accepted := some 0, starts := 1, writing := 1,
      deadline := ⟨seconds 60, [0], []⟩ } := by
  have hrun : Runs (onRead (.ofBodies []) id none ⟨.get, [47], 11, ""⟩)
      [⟨.op (.push .warn ("GET request to unregistered path: " ++ Bytes.text [47])), ()⟩,
        ⟨.text "url not found\r\n", ()⟩,
        ⟨.writeResponse ⟨11, false, .notFound, some "text/plain", none⟩, ()⟩, ⟨.asyncWait, ()⟩]
      (.ret ()) := .call _ (.call _ (.call _ (.call _ .refl)))
  have hstart : (connections (.ofBodies []) id).Reachable Kind.Any (strat (.ofBodies []) id 0)
      ⟨0, [] ++ .posted 0 :: []⟩ := .start
  have haccept : Connection.Moves (.ofBodies []) id 0 (.posted 0) (.accepted true) _ :=
    .accepted rfl
  have hread := (hstart.move haccept trivial).move (.read rfl hrun trivial) trivial
  exact (deadline_covers_iff hread (.head _)).mpr ⟨rfl, fun _ => rfl⟩

/-- A client is accepted and sends nothing. -/
theorem read_uncovered : ∃ c,
    (connections (.ofBodies []) id).Reachable Kind.Any (strat (.ofBodies []) id 0) c ∧
      ∃ conn ∈ c.things, conn.reading = true ∧ conn.deadline.begun = [] ∧ ¬ Covered conn := by
  have hstart : (connections (.ofBodies []) id).Reachable Kind.Any (strat (.ofBodies []) id 0)
      ⟨0, [] ++ .posted 0 :: []⟩ := .start
  have haccept : Connection.Moves (.ofBodies []) id 0 (.posted 0) (.accepted true) _ :=
    .accepted rfl
  refine ⟨_, hstart.move haccept trivial, _, .head _, rfl, rfl, fun h => ?_⟩
  exact h (.inl rfl) rfl

end GateServer.Server
