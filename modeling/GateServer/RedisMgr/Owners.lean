import GateServer.RedisMgr.Connect

/-!
# Ownership of the pool's connections

A call of `connect` that fails should leave no connection behind, and the pool should hold
those of the last call that succeeded. Both hold as long as an attempt throws only before
its call has pushed, a connection is returned only to a pool of its call, and a call
succeeds only over a pool of its own.
-/

namespace GateServer.RedisMgr

open Interact

/-- The connection's call is in progress, or succeeded last and was not closed since. -/
def Manager.Owns (m : Manager) (conn : Redis) : Prop :=
  (m.last = some conn.origin ∧ m.closed = false) ∨ m.Connecting conn.origin

def Manager.Allows (m : Manager) : Ev → Prop
  | ⟨.makeRedis call _ _, .error _⟩ => ∀ conn ∈ m.pushed, conn.origin ≠ call
  | ⟨.ping failed, .error _⟩ => ∀ conn ∈ m.pushed, conn.origin ≠ failed.origin
  | ⟨.setConnected call true, _⟩ =>
    ∀ conn ∈ m.connectionPool, conn.origin = call ∨ m.Connecting conn.origin
  | ⟨.giveConnection conn, _⟩ => m.Owns conn
  | _ => True

/-- The command has read `connected_` since that success. -/
def startedSince (last : Option Nat) (h : Trace) : Bool :=
  h.any fun
    | ⟨.isConnected, (_, last')⟩ => last' == last
    | _ => false

/-- The number of connections in use by commands that started since the last success. -/
def inUse (c : Config Ans Job Value Manager) : Nat :=
  (c.threads.map fun t =>
    if startedSince c.world.last t.hist then (held moves t.hist).card else 0).sum

/-- No call of `connect` or `close` is between its first step and its end. -/
def Quiet (c : Config Ans Job Value Manager) : Prop :=
  ∀ t ∈ c.threads, (∃ cmd, t.job = .command cmd) ∨ t.hist = [] ∨ t.Finished

structure Owned (c : Config Ans Job Value Manager) : Prop where
  atMost : c.world.connectionPool.length + inUse c ≤ 3
  origin : ∀ conn ∈ c.world.connectionPool,
    c.world.last = some conn.origin ∧ c.world.closed = false

def Op.changesPool : Op → Bool
  | .pushConnection _ | .takeConnection | .giveConnection _ | .closePool => true
  | _ => false

-- ---------------------------------------------------------------------------
-- What a step does to the owners
-- ---------------------------------------------------------------------------

def Manager.Current (m : Manager) (k : Nat) : Prop := m.last = some k ∨ m.Connecting k

theorem Manager.Owns.current {m : Manager} (h : m.Owns conn) : m.Current conn.origin :=
  h.imp And.left id

theorem Acts.connecting (h : Acts m ev m') (hk : m.Connecting k) (hends : ends k ev = 0) :
    m'.Connecting k := by
  obtain ⟨hcalls, hthrough⟩ := hk
  cases h with
  | setAddress => exact ⟨Nat.lt_succ_of_lt hcalls, hthrough⟩
  | unmade | silence | succeed =>
    refine ⟨hcalls, fun hmem => ?_⟩
    rcases List.mem_append.mp hmem with hmem | hmem
    · exact hthrough hmem
    · cases List.mem_singleton.mp hmem
      simp [ends, throws] at hends
  | _ => exact ⟨hcalls, hthrough⟩

theorem Acts.through (h : Acts m ev m') (hk : k ∈ m.through) : k ∈ m'.through := by
  cases h with
  | unmade | silence | succeed => exact List.mem_append_left _ hk
  | _ => exact hk

theorem Acts.last_eq (h : Acts m ev m') :
    m'.last = m.last ∨ ∃ call, m'.last = some call ∧ ends call ev ≠ 0 ∧ call ∈ m'.through := by
  cases h with
  | @succeed m call =>
    exact .inr ⟨call, rfl, by simp [ends], List.mem_append_right _ (List.mem_singleton_self call)⟩
  | _ => exact .inl rfl

theorem Manager.Allows.throws_eq {m : Manager} (h : m.Allows ev) (hpushed : conn ∈ m.pushed) :
    throws conn.origin ev = 0 := by
  obtain ⟨op, a⟩ := ev
  cases op with
  | makeRedis call options poolOpts =>
    cases a with
    | ok made => rfl
    | error what => exact if_neg (Ne.symm (h conn hpushed))
  | ping failed =>
    cases a with
    | ok pong => rfl
    | error what => exact if_neg (Ne.symm (h conn hpushed))
  | _ => rfl

/-- A call whose connection was pushed stays an owner until another one succeeds. -/
theorem Acts.current (h : Acts m ev m') (hallows : m.Allows ev) (hpushed : conn ∈ m.pushed)
    (hlast : m'.last = m.last) (hcur : m.Current conn.origin) : m'.Current conn.origin := by
  rcases hcur with hcur | hcur
  · exact .inl (hlast.trans hcur)
  · have hthrows := hallows.throws_eq hpushed
    by_cases hends : ends conn.origin ev = 0
    · exact .inr (h.connecting hcur hends)
    · cases h with
      | @succeed m call =>
        have hcall : call = conn.origin := by simpa [ends] using hends
        exact .inl (congrArg some hcall)
      | _ => exact absurd hthrows hends

theorem Acts.owns (h : Acts m ev m') (hallows : m.Allows ev)
    (hsub : ∀ conn ∈ m.connectionPool, conn ∈ m.pushed)
    (hpushes : ∀ k, pushes k ev ≠ 0 → m.Connecting k)
    (hidle : ∀ conn ∈ m.connectionPool, m.Owns conn) :
    ∀ conn ∈ m'.connectionPool, m'.Owns conn := by
  have hkeeps {conn : Redis} (hmem : conn ∈ m.connectionPool) (hown : m.Connecting conn.origin)
      (hends : ends conn.origin ev = throws conn.origin ev) : m'.Connecting conn.origin :=
    h.connecting hown (hends.trans (hallows.throws_eq (hsub conn hmem)))
  cases h with
  | setAddress | unmade | silence =>
    exact fun conn hmem => (hidle conn hmem).imp id fun hown => hkeeps hmem hown rfl
  | @pushConnection m new =>
    intro conn hmem
    rcases List.mem_append.mp hmem with hmem | hmem
    · exact hidle conn hmem
    · cases List.mem_singleton.mp hmem
      exact .inr (hpushes new.origin (by simp [pushes]))
  | @giveConnection m given =>
    intro conn hmem
    rcases List.mem_append.mp hmem with hmem | hmem
    · exact hidle conn hmem
    · cases List.mem_singleton.mp hmem
      exact hallows
  | @succeed m call =>
    intro conn hmem
    by_cases hcall : conn.origin = call
    · exact .inl ⟨congrArg some hcall.symm, rfl⟩
    · have hown : m.Connecting conn.origin := (hallows conn hmem).resolve_left hcall
      exact .inr (hkeeps hmem hown (if_neg (Ne.symm hcall)))
  | take hpool => exact fun conn hmem => hidle conn (hpool ▸ List.mem_cons_of_mem _ hmem)
  | closePool => exact fun conn hmem => by cases hmem
  | _ => exact hidle

theorem Acts.mem_of_takes (h : Acts m ev m') (hmoves : moves ev = .take conn) :
    conn ∈ m.connectionPool := by
  cases h with
  | take hpool =>
    cases hmoves
    exact hpool ▸ List.mem_cons_self
  | _ => cases hmoves

theorem Acts.last_of_reads {connected : Bool} {last : Option Nat}
    (h : Acts m ⟨.isConnected, (connected, last)⟩ m') : last = m.last := by
  cases h
  rfl

theorem startedSince_snoc {op : Op} {a : Ans op} (hasks : (orderly job).guar h op)
    (hstarted : startedSince last (h ++ [⟨op, a⟩]) = true) :
    startedSince last h = true ∨
      h = [] ∧ ∃ connected, (⟨op, a⟩ : Ev) = ⟨.isConnected, (connected, last)⟩ := by
  rw [startedSince, List.any_append, Bool.or_eq_true] at hstarted
  refine hstarted.imp id fun hnew => ?_
  cases op with
  | isConnected =>
    obtain ⟨connected, last'⟩ := a
    have hlast : last' = last := by simpa using hnew
    exact ⟨hasks, connected, by rw [hlast]⟩
  | _ => simp at hnew

-- ---------------------------------------------------------------------------
-- The invariant
-- ---------------------------------------------------------------------------

variable {c c' : Config Ans Job Value Manager} {jobs : List Job}

structure Kept (c : Config Ans Job Value Manager) : Prop where
  idle : ∀ conn ∈ c.world.connectionPool, c.world.Owns conn
  used : ∀ t ∈ c.threads, startedSince c.world.last t.hist = true →
    ∀ conn ∈ held moves t.hist, c.world.Current conn.origin
  last : ∀ k, c.world.last = some k → k ∈ c.world.through
  started : ∀ t ∈ c.threads, ∀ k, startedSince (some k) t.hist = true → k ∈ c.world.through
  gaveUp : ∀ t ∈ c.threads, ∀ k, tally (throws k) t.hist ≠ 0 → tally (pushes k) t.hist = 0

theorem kept_start : Kept (.start Job.call {} jobs) := by
  have hhist : ∀ t ∈ (Config.start Job.call ({} : Manager) jobs).threads, t.hist = [] := by
    intro t ht
    obtain ⟨i, -, rfl⟩ := List.mem_map.mp ht
    rfl
  exact {
    idle := nofun
    used := fun t ht hstarted => by simp [hhist t ht, startedSince] at hstarted
    last := nofun
    started := fun t ht k hstarted => by simp [hhist t ht, startedSince] at hstarted
    gaveUp := fun t ht k hthrows => by simp [hhist t ht] at hthrows }

theorem mem_pushed (hr : Reachable arena (.start Job.call {} jobs) c) :
    (∀ conn ∈ c.world.connectionPool, conn ∈ c.world.pushed) ∧
      ∀ t ∈ c.threads, ∀ conn ∈ held moves t.hist, conn ∈ c.world.pushed := by
  have hle := connections_le hr
  refine ⟨fun conn hmem => ?_, fun t ht conn hmem => ?_⟩
  · exact Multiset.mem_of_le ((Multiset.le_add_right _ _).trans hle) hmem
  · have hall : held moves t.hist ≤ allHeld moves c.threads :=
      List.single_le_sum (fun _ _ => Multiset.zero_le _) _ (List.mem_map.mpr ⟨t, ht, rfl⟩)
    exact Multiset.mem_of_le (hall.trans ((Multiset.le_add_left _ _).trans hle)) hmem

structure Moved (c c' : Config Ans Job Value Manager) (t : Thread Ans Job Value) (op : Op)
    (a : Ans op) : Prop where
  mem : t ∈ c.threads
  acts : Acts c.world ⟨op, a⟩ c'.world
  allows : c.world.Allows ⟨op, a⟩
  asks : (orderly t.job).guar t.hist op
  gives : GivesHeld moves t.hist op
  givenBack_le : givenBack moves t.hist ≤ taken moves t.hist
  threads : ∀ u ∈ c'.threads, u ∈ c.threads ∨ u.hist = t.hist ++ [⟨op, a⟩]

theorem moved (hr : Reachable arena (.start Job.call {} jobs) c)
    (hs : Step (arena.only Manager.Allows) c who c') : ∃ t op a, Moved c c' t op a := by
  have hs' := hs.of_only
  cases hs with
  | env henv => exact henv.elim
  | @call op m a m' ts us job h next hstep =>
    have hmem : (⟨job, h, .call op next⟩ : Thread Ans Job Value) ∈
        ts ++ ⟨job, h, .call op next⟩ :: us := by simp
    have hsteps := hr.steps _ hmem
    have hmade := all_made hr _ hmem
    refine ⟨⟨job, h, .call op next⟩, op, a, {
      mem := hmem
      acts := hstep.1
      allows := hstep.2
      asks := Reachable.asks job_ends hr hs' hmade
      gives := Spec.asks (job_borrows job) (hsteps.snoc a) hmade
      givenBack_le := Spec.givenBack_le (job_borrows job) hsteps hmade
      threads := ?_ }⟩
    intro u hu
    rcases List.mem_append.mp hu with hu | hu
    · exact .inl (List.mem_append_left _ hu)
    · rcases List.mem_cons.mp hu with rfl | hu
      · exact .inr rfl
      · exact .inl (List.mem_append_right _ (.tail _ hu))

section
variable {t : Thread Ans Job Value} {op : Op} {a : Ans op}

theorem Moved.current (hm : Moved c c' t op a) (hr : Reachable arena (.start Job.call {} jobs) c)
    (hk : Kept c) (hu : u ∈ c.threads) (hstarted : startedSince c'.world.last u.hist = true)
    (hconn : conn ∈ held moves u.hist ∨ conn ∈ c.world.connectionPool) :
    c'.world.Current conn.origin := by
  obtain ⟨hpool, hheld⟩ := mem_pushed hr
  rcases hm.acts.last_eq with heq | ⟨call, heq, hends, -⟩
  · rw [heq] at hstarted
    rcases hconn with hconn | hconn
    · exact hm.acts.current hm.allows (hheld u hu conn hconn) heq (hk.used u hu hstarted conn hconn)
    · exact hm.acts.current hm.allows (hpool conn hconn) heq (hk.idle conn hconn).current
  · rw [heq] at hstarted
    have hloop := (inLoop_of_ends hm.asks hends).1
    exact absurd (hk.started u hu call hstarted) (connecting_of_inLoop hr hm.mem hloop).2

theorem Moved.used (hm : Moved c c' t op a) (hr : Reachable arena (.start Job.call {} jobs) c)
    (hk : Kept c) (hu : u ∈ c'.threads) (hstarted : startedSince c'.world.last u.hist = true)
    (hconn : conn ∈ held moves u.hist) : c'.world.Current conn.origin := by
  rcases hm.threads u hu with hu | hhist
  · exact hm.current hr hk hu hstarted (.inl hconn)
  · rw [hhist] at hstarted hconn
    have hheld := mem_held_snoc hm.givenBack_le (hm.gives a) hconn
    rcases startedSince_snoc hm.asks hstarted with hstarted | ⟨hnil, connected, heq⟩
    · exact hm.current hr hk hm.mem hstarted (hheld.imp id hm.acts.mem_of_takes)
    · -- it has only just read `connected_`, and holds nothing
      rw [hnil, heq] at hheld
      rcases hheld with hheld | hheld
      · exact absurd hheld (Multiset.notMem_zero conn)
      · cases hheld

theorem Moved.started (hm : Moved c c' t op a) (hk : Kept c) (hu : u ∈ c'.threads)
    (hstarted : startedSince (some k) u.hist = true) : k ∈ c'.world.through := by
  rcases hm.threads u hu with hu | hhist
  · exact hm.acts.through (hk.started u hu k hstarted)
  · rw [hhist] at hstarted
    rcases startedSince_snoc hm.asks hstarted with hstarted | ⟨-, connected, heq⟩
    · exact hm.acts.through (hk.started t hm.mem k hstarted)
    · have hacts := hm.acts
      rw [heq] at hacts
      exact hacts.through (hk.last k hacts.last_of_reads.symm)

theorem Moved.last (hm : Moved c c' t op a) (hk : Kept c) (hlast : c'.world.last = some k) :
    k ∈ c'.world.through := by
  rcases hm.acts.last_eq with heq | ⟨call, heq, -, hthrough⟩
  · exact hm.acts.through (hk.last k (heq ▸ hlast))
  · cases heq.symm.trans hlast
    exact hthrough

theorem Moved.gaveUp (hm : Moved c c' t op a) (hr : Reachable arena (.start Job.call {} jobs) c)
    (hk : Kept c) (hu : u ∈ c'.threads) (hthrows : tally (throws k) u.hist ≠ 0) :
    tally (pushes k) u.hist = 0 := by
  rcases hm.threads u hu with hu | hhist
  · exact hk.gaveUp u hu k hthrows
  · rw [hhist, tally_append, tally_cons, tally_nil, Nat.add_zero] at hthrows ⊢
    by_cases hpushes : pushes k ⟨op, a⟩ = 0
    · rw [hpushes, Nat.add_zero]
      by_cases hold : tally (throws k) t.hist = 0
      · rw [hold, Nat.zero_add] at hthrows
        have hnone : c.world.pushed.countP (·.origin = k) = 0 := by
          refine List.countP_eq_zero.mpr fun conn hmem horigin => ?_
          have hzero := hm.allows.throws_eq hmem
          rw [of_decide_eq_true horigin] at hzero
          exact hthrows hzero
        have hall := tally_le_all (pushes k) hm.mem
        rw [all_pushes hr, hnone] at hall
        exact Nat.le_zero.mp hall
      · exact hk.gaveUp t hm.mem k hold
    · -- whoever still pushes has not thrown
      have hloop := (inLoop_of_pushes hm.asks hpushes).1
      have hold := tally_le_tally (throws_le_ends k) t.hist
      rw [hloop.notThrough k] at hold
      exact absurd (by rw [Nat.le_zero.mp hold, throws_of_pushes hpushes]) hthrows

end

theorem Kept.step (hk : Kept c) (hr : Reachable arena (.start Job.call {} jobs) c)
    (hs : Step (arena.only Manager.Allows) c who c') : Kept c' := by
  obtain ⟨t, op, a, hm⟩ := moved hr hs
  have hpushes : ∀ k, pushes k ⟨op, a⟩ ≠ 0 → c.world.Connecting k := fun k hpushes =>
    connecting_of_inLoop hr hm.mem (inLoop_of_pushes hm.asks hpushes).1
  exact {
    idle := hm.acts.owns hm.allows (mem_pushed hr).1 hpushes hk.idle
    used := fun _ hu hstarted _ hconn => hm.used hr hk hu hstarted hconn
    last := fun _ hlast => hm.last hk hlast
    started := fun _ hu _ hstarted => hm.started hk hu hstarted
    gaveUp := fun _ hu _ hthrows => hm.gaveUp hr hk hu hthrows }

theorem kept (hr : Reachable (arena.only Manager.Allows) (.start Job.call {} jobs) c) : Kept c := by
  induction hr with
  | start => exact kept_start
  | step hr hs ih => exact ih.step hr.of_only hs

-- ---------------------------------------------------------------------------
-- When nothing is under way
-- ---------------------------------------------------------------------------

theorem connects_of_begins (hr : Reachable arena (.start Job.call {} jobs) c)
    (ht : t ∈ c.threads) (hbegins : 0 < tally (begins k) t.hist) : t.job.connects = true := by
  obtain ⟨⟨op, a⟩, hev, hpos⟩ := exists_of_tally_pos hbegins
  obtain ⟨h, hasks⟩ := asked (hr.steps t ht) (all_made hr t ht) hev
  cases op with
  | setAddress => exact hasks.2
  | _ => exact absurd hpos (Nat.lt_irrefl 0)

theorem quiet_not_connecting (hr : Reachable arena (.start Job.call {} jobs) c) (hq : Quiet c)
    (k : Nat) : ¬ c.world.Connecting k := by
  rintro ⟨hcalls, hthrough⟩
  have hall : 0 < c.tally (begins k) := by
    rw [all_begins hr, if_pos hcalls]
    exact Nat.one_pos
  obtain ⟨t, ht, hbegins⟩ := exists_of_all_pos hall
  have hconnects := connects_of_begins hr ht hbegins
  have hsteps := hr.steps t ht
  rcases hq t ht with ⟨cmd, hjob⟩ | hnil | ⟨e, he⟩
  · rw [hjob] at hconnects
    cases hconnects
  · rw [hnil] at hbegins
    exact absurd hbegins (Nat.lt_irrefl 0)
  · rw [he] at hsteps
    have hends := Spec.runs (job_ends t.job) hsteps (all_made hr t ht)
    obtain ⟨job, hist, rest⟩ := t
    cases job with
    | connect host port password =>
      obtain ⟨call, hover, -⟩ := hends
      have hcall : tally (ends k) hist = tally (begins k) hist := by
        rw [hover.begun k, hover.through k]
      have hle := tally_le_all (ends k) ht
      rw [all_ends hr, List.count_eq_zero.mpr hthrough] at hle
      dsimp only at hbegins hle
      omega
    | _ => cases hconnects

/-- A call that fails has not changed the pool. -/
theorem failed_leaves_pool (hr : Reachable arena (.start Job.call {} jobs) c) (hk : Kept c)
    (ht : t ∈ c.threads) (hconnects : t.job.connects = true)
    (hfalse : t.rest = .done (.ret (.bool false))) : ∀ ev ∈ t.hist, ev.op.changesPool = false := by
  have hmade := all_made hr t ht
  have hsteps := hr.steps t ht
  have hpushes : ∀ k, tally (pushes k) t.hist = 0 := by
    intro k
    rw [hfalse] at hsteps
    have hends := Spec.runs (job_ends t.job) hsteps hmade
    obtain ⟨job, hist, rest⟩ := t
    cases job with
    | connect host port password =>
      obtain ⟨call, -, hfailed⟩ := hends
      obtain ⟨hthrew, hother⟩ := hfailed rfl
      by_cases hcall : k = call
      · rw [hcall]
        exact hk.gaveUp _ ht call (Nat.ne_of_gt hthrew)
      · exact hother k hcall
    | _ => cases hconnects
  rintro ⟨op, a⟩ hev
  obtain ⟨h, hasks⟩ := asked hsteps hmade hev
  cases op with
  | pushConnection conn =>
    have hle : pushes conn.origin ⟨.pushConnection conn, a⟩ ≤ 0 :=
      hpushes conn.origin ▸ le_tally hev
    simp [pushes] at hle
  | takeConnection | giveConnection | closePool =>
    cases hconnects.symm.trans hasks
  | _ => rfl

theorem sum_card_le {ts : List (Thread Ans Job Value)} {p : Thread Ans Job Value → Bool}
    (h : ∀ t ∈ ts, p t = true → ∀ conn ∈ held moves t.hist, conn.origin = k) :
    (ts.map fun t => if p t then (held moves t.hist).card else 0).sum ≤
      (allHeld moves ts).countP (·.origin = k) := by
  induction ts with
  | nil => exact Nat.zero_le _
  | cons t ts ih =>
    have hrest := ih fun u hu => h u (List.mem_cons_of_mem t hu)
    have hsplit : allHeld moves (t :: ts) = held moves t.hist + allHeld moves ts := rfl
    rw [List.map_cons, List.sum_cons, hsplit, Multiset.countP_add]
    refine Nat.add_le_add ?_ hrest
    split
    next hp => exact (Multiset.countP_eq_card.mpr (h t List.mem_cons_self hp)).ge
    next => exact Nat.zero_le _

theorem Kept.owned (hk : Kept c) (hr : Reachable arena (.start Job.call {} jobs) c)
    (hq : Quiet c) : Owned c := by
  have horigin : ∀ conn ∈ c.world.connectionPool,
      c.world.last = some conn.origin ∧ c.world.closed = false := fun conn hmem =>
    (hk.idle conn hmem).resolve_right (quiet_not_connecting hr hq conn.origin)
  have hheld : ∀ t ∈ c.threads, startedSince c.world.last t.hist = true →
      ∀ conn ∈ held moves t.hist, c.world.last = some conn.origin := fun t ht hstarted conn hmem =>
    (hk.used t ht hstarted conn hmem).resolve_right (quiet_not_connecting hr hq conn.origin)
  refine ⟨?_, horigin⟩
  -- with no success so far there is nothing, and the call that succeeded made three
  generalize hcall : c.world.last.getD 0 = call
  have hidle : c.world.connectionPool.length = c.world.connectionPool.countP (·.origin = call) := by
    refine (List.countP_eq_length.mpr fun conn hmem => ?_).symm
    rw [(horigin conn hmem).1] at hcall
    exact decide_eq_true hcall
  have huse : inUse c ≤ (allHeld moves c.threads).countP (·.origin = call) := by
    refine sum_card_le fun t ht hstarted conn hmem => ?_
    rw [hheld t ht hstarted conn hmem] at hcall
    exact hcall
  have hall := Multiset.countP_le_of_le (·.origin = call) (connections_le hr)
  rw [Multiset.countP_add, Multiset.coe_countP, Multiset.coe_countP] at hall
  have hthree := pushed_le hr call
  omega

/-- In every run of allowed steps, a call of `connect` that failed has not changed the pool,
and when no call is in progress the pool belongs to the last success. -/
theorem connect_owned (hr : Reachable (arena.only Manager.Allows) (.start Job.call {} jobs) c) :
    (∀ t ∈ c.threads, t.job.connects = true → t.rest = .done (.ret (.bool false)) →
      ∀ ev ∈ t.hist, ev.op.changesPool = false) ∧
    (Quiet c → Owned c) :=
  ⟨fun _ ht hconnects hfalse => failed_leaves_pool hr.of_only (kept hr) ht hconnects hfalse,
    (kept hr).owned hr.of_only⟩

theorem connect_owned_stocked : ∃ c, Reachable (arena.only Manager.Allows)
      (.start Job.call {} [.connect "redis" 6379 "", .command (.get "key")]) c ∧
    c.world.connectionPool = [⟨0, 1⟩, ⟨0, 2⟩] ∧ inUse c = 1 ∧ Owned c := by
  have hplays : Plays (arena.only Manager.Allows) {} stocking stocked :=
    .cons ⟨Acts.setAddress, trivial⟩ (.cons ⟨Acts.address, trivial⟩
      (.cons ⟨Acts.made, trivial⟩ (.cons ⟨Acts.pong, trivial⟩ (.cons ⟨Acts.pushConnection, trivial⟩
      (.cons ⟨Acts.made, trivial⟩ (.cons ⟨Acts.pong, trivial⟩ (.cons ⟨Acts.pushConnection, trivial⟩
      (.cons ⟨Acts.made, trivial⟩ (.cons ⟨Acts.pong, trivial⟩ (.cons ⟨Acts.pushConnection, trivial⟩
      (.cons ⟨Acts.succeed, by simp [Manager.Allows]⟩ (.cons ⟨Acts.push, trivial⟩ .nil))))))))))))
  have hborrows : Plays (arena.only Manager.Allows) stocked
      [⟨.isConnected, (true, some 0)⟩, ⟨.takeConnection, some ⟨0, 0⟩⟩]
      { stocked with connectionPool := [⟨0, 1⟩, ⟨0, 2⟩] } :=
    .cons ⟨Acts.isConnected, trivial⟩ (.cons ⟨Acts.take rfl, trivial⟩ .nil)
  have hstart : Reachable (arena.only Manager.Allows)
      (.start Job.call {} [.connect "redis" 6379 "", .command (.get "key")])
      (.start Job.call {} [.connect "redis" 6379 "", .command (.get "key")]) := .start
  have hconnected := hstart.goOn [] [_] stocking_steps hplays
  have hborrowed := hconnected.goOn [_] [] (.call _ (.call _ .refl)) hborrows
  refine ⟨_, hborrowed, rfl, rfl, (connect_owned hborrowed).2 ?_⟩
  intro t ht
  simp only [List.mem_append, List.mem_cons, List.not_mem_nil, or_false] at ht
  rcases ht with rfl | rfl
  · exact .inr (.inr ⟨_, rfl⟩)
  · exact .inl ⟨_, rfl⟩

def refusal : Trace :=
  ⟨.setAddress "redis" 6379 "", 0⟩ :: ⟨.address, ("redis", 6379, "")⟩ :: (stockingRound 0 ++
    [⟨.makeRedis 0 { host := "redis", port := 6379, password := none } {}, .error "refused"⟩,
      ⟨.push .error "Redis connection failed: refused", ()⟩, ⟨.setConnected 0 false, ()⟩])

def leftOver : Manager where
  host := "redis"
  port := 6379
  connectionPool := [⟨0, 0⟩]
  calls := 1
  made := 1
  through := [0]
  pushed := [⟨0, 0⟩]

/-- The second attempt throws, and the first connection stays in the pool. -/
theorem partial_connect : ∃ c t, Reachable arena (.start Job.call {} [.connect "redis" 6379 ""]) c ∧
    Quiet c ∧ t ∈ c.threads ∧ t.job.connects = true ∧ t.rest = .done (.ret (.bool false)) ∧
    c.world.connectionPool = [⟨0, 0⟩] ∧ c.world.last = none ∧
    ¬ (∀ ev ∈ t.hist, ev.op.changesPool = false) ∧ ¬ Owned c := by
  have hsteps : Steps (Job.call (.connect "redis" 6379 "")) refusal (.done (.ret (.bool false))) :=
    .call _ (.call _ (.call _ (.call _ (.call _ (.call _ (.call _ (.call _ .refl)))))))
  have hplays : Plays arena {} refusal leftOver :=
    .cons Acts.setAddress (.cons Acts.address (.cons Acts.made (.cons Acts.pong
      (.cons Acts.pushConnection (.cons Acts.unmade (.cons Acts.push (.cons Acts.fail .nil)))))))
  refine ⟨_, _, .alone hsteps hplays, ?_, List.mem_singleton_self _, rfl, rfl, rfl, rfl, ?_, ?_⟩
  · intro t ht
    cases List.mem_singleton.mp ht
    exact .inr (.inr ⟨_, rfl⟩)
  · intro hall
    have hpush := hall ⟨.pushConnection ⟨0, 0⟩, ()⟩ (by simp [refusal, stockingRound])
    cases hpush
  · intro howned
    cases (howned.origin ⟨0, 0⟩ (List.mem_singleton_self _)).1

end GateServer.RedisMgr
