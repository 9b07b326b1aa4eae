import GateServer.Interact.Tally
import GateServer.RedisMgr

/-!
# Calls of `connect`

A call of `connect` pushes its connections one by one, at most three of them, and a
command gives its connection back whatever has happened meanwhile. The pool can therefore
hold connections of several calls.
-/

namespace GateServer.RedisMgr

open Interact

-- ---------------------------------------------------------------------------
-- The events of one call
-- ---------------------------------------------------------------------------

def begins (k : Nat) : Ev → Nat
  | ⟨.setAddress .., call⟩ => if call = k then 1 else 0
  | _ => 0

def pushes (k : Nat) : Ev → Nat
  | ⟨.pushConnection conn, _⟩ => if conn.origin = k then 1 else 0
  | _ => 0

def throws (k : Nat) : Ev → Nat
  | ⟨.makeRedis call _ _, .error _⟩ => if call = k then 1 else 0
  | ⟨.ping conn, .error _⟩ => if conn.origin = k then 1 else 0
  | _ => 0

def ends (k : Nat) : Ev → Nat
  | ⟨.setConnected call true, _⟩ => if call = k then 1 else 0
  | ev => throws k ev

theorem throws_le_ends (k : Nat) (ev : Ev) : throws k ev ≤ ends k ev := by
  obtain ⟨op, a⟩ := ev
  cases op with
  | setConnected => exact Nat.zero_le _
  | _ => exact Nat.le_refl _

theorem throws_of_pushes (h : pushes k ev ≠ 0) : throws k ev = 0 := by
  obtain ⟨op, a⟩ := ev
  cases op with
  | pushConnection conn => rfl
  | _ => exact absurd rfl h

def Made : Ev → Prop
  | ⟨.makeRedis call _ _, .ok conn⟩ => conn.origin = call
  | _ => True

structure InLoop (call : Nat) (h : Trace) : Prop where
  begun : ∀ k, tally (begins k) h = if call = k then 1 else 0
  notThrough : ∀ k, tally (ends k) h = 0

def Job.connects : Job → Bool
  | .connect .. => true
  | _ => false

def orderly (job : Job) : Protocol Ans where
  rely := Made
  guar h op := match op with
    | .setAddress .. => h = [] ∧ job.connects
    | .makeRedis call _ _ | .setConnected call true => InLoop call h
    | .ping conn => InLoop conn.origin h
    | .pushConnection conn => InLoop conn.origin h ∧ tally (pushes conn.origin) h < 3
    | .isConnected => h = []
    | .takeConnection | .giveConnection _ | .closePool => job.connects = false
    | _ => True

structure Filling (call n : Nat) (h : Trace) : Prop extends InLoop call h where
  pushed : tally (pushes call) h + n = 3
  noOther : ∀ k ≠ call, tally (pushes k) h = 0

structure Through (call : Nat) (h : Trace) : Prop where
  begun : ∀ k, tally (begins k) h = if call = k then 1 else 0
  through : ∀ k, tally (ends k) h = if call = k then 1 else 0

structure GaveUp (call : Nat) (h : Trace) : Prop extends Through call h where
  threw : 0 < tally (throws call) h
  noOther : ∀ k ≠ call, tally (pushes k) h = 0

def FillEnds (call : Nat) (h : Trace) : Exit Unit → Prop
  | .ret _ => Filling call 0 h
  | .threw _ => GaveUp call h
  | .undef _ => False

theorem Filling.snoc (hf : Filling call n h)
    (hev : ∀ k, begins k ev = 0 ∧ ends k ev = 0 ∧ pushes k ev = 0) :
    Filling call n (h ++ [ev]) where
  begun k := by simp [hf.begun k, (hev k).1]
  notThrough k := by simp [hf.notThrough k, (hev k).2.1]
  pushed := by simp [hf.pushed, (hev call).2.2]
  noOther k hk := by simp [hf.noOther k hk, (hev k).2.2]

theorem Filling.push (hf : Filling conn.origin (n + 1) h) :
    Filling conn.origin n (h ++ [⟨.pushConnection conn, ()⟩]) where
  begun k := by simp [hf.begun k, begins]
  notThrough k := by simp [hf.notThrough k, ends, throws]
  pushed := by
    have hpushed := hf.pushed
    simp [pushes]
    omega
  noOther k hk := by simp [hf.noOther k hk, pushes, Ne.symm hk]

theorem Filling.giveUp (hf : Filling call n h)
    (hev : ∀ k, begins k ev = 0 ∧ pushes k ev = 0 ∧ throws k ev = (if call = k then 1 else 0) ∧
      ends k ev = throws k ev) : GaveUp call (h ++ [ev]) where
  begun k := by simp [hf.begun k, (hev k).1]
  through k := by simp [hf.notThrough k, (hev k).2.2]
  threw := by simp [(hev call).2.2.1]
  noOther k hk := by simp [hf.noOther k hk, (hev k).2.1]

theorem fill_ends (n : Nat) (hf : Filling call n h) :
    Spec (orderly job) h (fill call options poolOpts n) (FillEnds call) := by
  induction n generalizing h with
  | zero => exact hf
  | succ n ih =>
    refine ⟨hf.toInLoop, ?_⟩
    rintro (what | conn) hmade
    · exact hf.giveUp fun k => ⟨rfl, rfl, rfl, rfl⟩
    · obtain rfl : conn.origin = call := hmade
      have hconn : Filling conn.origin (n + 1)
          (h ++ [⟨.makeRedis conn.origin options poolOpts, .ok conn⟩]) :=
        hf.snoc fun k => ⟨rfl, rfl, rfl⟩
      refine ⟨hconn.toInLoop, ?_⟩
      rintro (what | pong) -
      · exact hconn.giveUp fun k => ⟨rfl, rfl, rfl, rfl⟩
      · have hpong := hconn.snoc fun k => (⟨rfl, rfl, rfl⟩ :
          begins k ⟨.ping conn, .ok pong⟩ = 0 ∧ ends k ⟨.ping conn, .ok pong⟩ = 0 ∧
            pushes k ⟨.ping conn, .ok pong⟩ = 0)
        have hpushed := hpong.pushed
        exact ⟨⟨hpong.toInLoop, by omega⟩, fun _ _ => ih hpong.push⟩

def ConnectEnds (tr : Trace) (e : Exit Bool) : Prop :=
  ∃ call, Through call tr ∧
    (e = .ret false → 0 < tally (throws call) tr ∧ ∀ k ≠ call, tally (pushes k) tr = 0)

theorem connect_ends (host : String) (port : Int) (password : String) :
    Spec (orderly (.connect host port password)) [] (connect host port password) ConnectEnds := by
  refine ⟨⟨rfl, rfl⟩, fun call _ => ?_⟩
  have hbegun : Filling call 3 [⟨.setAddress host port password, call⟩] :=
    { begun := fun k => by simp [begins]
      notThrough := fun k => by simp [ends, throws]
      pushed := by simp [pushes]
      noOther := fun k _ => by simp [pushes] }
  refine spec_tryCatch.mpr ⟨trivial, ?_⟩
  rintro ⟨host_, port_, password_⟩ -
  have haddress : Filling call 3 ([⟨.setAddress host port password, call⟩] ++
      [⟨.address, (host_, port_, password_)⟩]) := hbegun.snoc fun k => ⟨rfl, rfl, rfl⟩
  refine (fill_ends 3 haddress).bind fun h e hend => ?_
  cases e with
  | undef why => exact hend.elim
  | threw what =>
    refine ⟨trivial, fun _ _ => ⟨trivial, fun _ _ => ?_⟩⟩
    have hthrough : Through call (h ++ [⟨.push .error ("Redis connection failed: " ++ what), ()⟩] ++
        [⟨.setConnected call false, ()⟩]) :=
      { begun := fun k => by simp [hend.begun k, begins]
        through := fun k => by simp [hend.through k, ends, throws] }
    refine ⟨call, hthrough, fun _ => ⟨?_, fun k hk => ?_⟩⟩
    · simpa [throws] using hend.threw
    · simp [hend.noOther k hk, pushes]
  | ret u =>
    refine ⟨hend.toInLoop, fun _ _ => ⟨trivial, fun _ _ => ?_⟩⟩
    have hthrough : Through call (h ++ [⟨.setConnected call true, ()⟩] ++
        [⟨.push .info ("Redis connected successfully to " ++ host ++ ":" ++ toString port), ()⟩]) :=
      { begun := fun k => by simp [hend.begun k, begins]
        through := fun k => by simp [hend.notThrough k, ends, throws] }
    exact ⟨call, hthrough, fun hfalse => by cases hfalse⟩

def Op.answer : (op : Op) → Ans op
  | .setAddress .. => (0 : Nat)
  | .address => ("", 0, "")
  | .makeRedis call _ _ => .ok ⟨call, 0⟩
  | .ping _ => .ok ()
  | .isConnected => (false, none)
  | .takeConnection => none
  | .command .. => .error ""
  | .pushConnection _ | .setConnected .. | .giveConnection _ | .closePool | .push .. => ()

theorem made_answer (op : Op) : Made ⟨op, op.answer⟩ := by
  cases op <;> first | rfl | trivial

def JobEnds : Job → Trace → Exit Value → Prop
  | .connect .., tr, e => ∃ call, Through call tr ∧
      (e = .ret (.bool false) → 0 < tally (throws call) tr ∧
        ∀ k ≠ call, tally (pushes k) tr = 0)
  | _, _, _ => True

theorem job_ends (job : Job) : Spec (orderly job) [] job.call (JobEnds job) := by
  cases job with
  | command cmd =>
    obtain ⟨name, reply, hrun⟩ := call_run cmd
    refine Spec.of_runs (fun op => ⟨op.answer, made_answer op⟩) fun tr e hruns _ => ?_
    cases hrun.ends hruns <;> simp [Guarded, orderly, JobEnds, Job.connects]
  | connect host port password =>
    refine spec_map.mpr ((connect_ends host port password).mono ?_)
    rintro tr e ⟨call, hthrough, hfalse⟩
    refine ⟨call, hthrough, fun he => hfalse ?_⟩
    cases e with
    | ret b =>
      cases b with
      | false => rfl
      | true => cases he
    | _ => cases he
  | close => exact ⟨rfl, fun _ _ => ⟨trivial, fun _ _ => trivial⟩⟩

theorem inLoop_of_ends {op : Op} {a : Ans op} (hasks : (orderly job).guar h op)
    (hends : ends k ⟨op, a⟩ ≠ 0) : InLoop k h ∧ ends k ⟨op, a⟩ = 1 := by
  cases op with
  | makeRedis call options poolOpts =>
    cases a with
    | ok conn => exact absurd rfl hends
    | error what =>
      have hk : call = k := by simpa [ends, throws] using hends
      exact ⟨hk ▸ hasks, if_pos hk⟩
  | ping conn =>
    cases a with
    | ok pong => exact absurd rfl hends
    | error what =>
      have hk : conn.origin = k := by simpa [ends, throws] using hends
      exact ⟨hk ▸ hasks, if_pos hk⟩
  | setConnected call connected =>
    cases connected with
    | false => exact absurd rfl hends
    | true =>
      have hk : call = k := by simpa [ends] using hends
      exact ⟨hk ▸ hasks, if_pos hk⟩
  | _ => exact absurd rfl hends

theorem inLoop_of_pushes {op : Op} {a : Ans op} (hasks : (orderly job).guar h op)
    (hpushes : pushes k ⟨op, a⟩ ≠ 0) :
    InLoop k h ∧ tally (pushes k) h < 3 ∧ pushes k ⟨op, a⟩ = 1 := by
  cases op with
  | pushConnection conn =>
    have hk : conn.origin = k := by simpa [pushes] using hpushes
    obtain ⟨hloop, hless⟩ := hasks
    exact ⟨hk ▸ hloop, hk ▸ hless, if_pos hk⟩
  | _ => exact absurd rfl hpushes

theorem asked (hs : Steps (Job.call job) tr q) (hmade : ∀ ev ∈ tr, Made ev) (hev : ev ∈ tr) :
    ∃ h, (orderly job).guar h ev.op := by
  obtain ⟨before, after, rfl⟩ := List.append_of_mem hev
  have hbefore : ∀ ev ∈ before, Made ev := fun ev hmem => hmade ev (List.mem_append_left _ hmem)
  exact ⟨before, Spec.asks (job_ends job) hs hbefore⟩

theorem counts (hs : Steps (Job.call job) tr q) (hmade : ∀ ev ∈ tr, Made ev) (k : Nat) :
    tally (ends k) tr ≤ tally (begins k) tr ∧ tally (pushes k) tr ≤ 3 * tally (begins k) tr := by
  induction tr using List.reverseRecOn generalizing q with
  | nil => exact ⟨Nat.le_refl 0, Nat.le_refl 0⟩
  | append_singleton tr ev ih =>
    obtain ⟨op, a⟩ := ev
    obtain ⟨q', hq', -⟩ := hs.split
    have hmade' : ∀ ev ∈ tr, Made ev := fun ev hev => hmade ev (List.mem_append_left _ hev)
    have hasks : (orderly job).guar tr op := Spec.asks (job_ends job) hs hmade'
    obtain ⟨hends, hpushes⟩ := ih hq' hmade'
    simp only [tally_append, tally_cons, tally_nil, Nat.add_zero]
    constructor
    · by_cases hev : ends k ⟨op, a⟩ = 0
      · omega
      · obtain ⟨hloop, hone⟩ := inLoop_of_ends hasks hev
        rw [hloop.begun k, hloop.notThrough k, if_pos rfl]
        omega
    · by_cases hev : pushes k ⟨op, a⟩ = 0
      · omega
      · obtain ⟨hloop, hless, hone⟩ := inLoop_of_pushes hasks hev
        rw [hloop.begun k, if_pos rfl]
        omega

-- ---------------------------------------------------------------------------
-- The events of all calls
-- ---------------------------------------------------------------------------

/-- The call has begun and has not finished connecting. -/
def Manager.Connecting (m : Manager) (k : Nat) : Prop := k < m.calls ∧ k ∉ m.through

variable {c : Config Ans Job Value Manager} {jobs : List Job}

theorem acts_made (m : Manager) (ev : Ev) (m' : Manager) (h : arena.act m ev m') : Made ev := by
  cases (h : Acts m ev m') <;> first | rfl | trivial

theorem all_made (hr : Reachable arena (.start Job.call {} jobs) c) :
    ∀ t ∈ c.threads, ∀ ev ∈ t.hist, Made ev :=
  hr.all_answers acts_made

theorem no_env (n : Manager → Nat) : ∀ m m', arena.env m m' → n m' = n m := fun _ _ h => h.elim

theorem all_begins (hr : Reachable arena (.start Job.call {} jobs) c) (k : Nat) :
    c.tally (begins k) = if k < c.world.calls then 1 else 0 := by
  have hact : ∀ m ev m', arena.act m ev m' →
      (if k < m'.calls then 1 else 0) = (if k < m.calls then 1 else 0) + begins k ev := by
    intro m ev m' hact
    cases (hact : Acts m ev m') with
    | setAddress =>
      change (if k < m.calls + 1 then 1 else 0) =
        (if k < m.calls then 1 else 0) + if m.calls = k then 1 else 0
      split_ifs <;> omega
    | _ => rfl
  have htally := Reachable.tally hact (no_env _) hr
  rwa [if_neg (Nat.not_lt_zero k), Nat.zero_add, eq_comm] at htally

theorem all_ends (hr : Reachable arena (.start Job.call {} jobs) c) (k : Nat) :
    c.tally (ends k) = c.world.through.count k := by
  have hact : ∀ m ev m', arena.act m ev m' →
      m'.through.count k = m.through.count k + ends k ev := by
    intro m ev m' hact
    cases (hact : Acts m ev m') <;> simp [Manager.finish, ends, throws, List.count_singleton]
  have htally := Reachable.tally hact (no_env _) hr
  rwa [List.count_nil, Nat.zero_add, eq_comm] at htally

theorem all_pushes (hr : Reachable arena (.start Job.call {} jobs) c) (k : Nat) :
    c.tally (pushes k) = c.world.pushed.countP (·.origin = k) := by
  have hact : ∀ m ev m', arena.act m ev m' →
      m'.pushed.countP (·.origin = k) = m.pushed.countP (·.origin = k) + pushes k ev := by
    intro m ev m' hact
    cases (hact : Acts m ev m') <;> simp [Manager.finish, pushes, List.countP_cons]
  have htally := Reachable.tally hact (no_env _) hr
  rwa [List.countP_nil, Nat.zero_add, eq_comm] at htally

theorem counts_at (hr : Reachable arena (.start Job.call {} jobs) c) (k : Nat)
    (ht : t ∈ c.threads) :
    tally (ends k) t.hist ≤ tally (begins k) t.hist ∧
      tally (pushes k) t.hist ≤ 3 * tally (begins k) t.hist :=
  counts (hr.steps t ht) (all_made hr t ht) k

/-- No call of `connect` pushes more than three connections. -/
theorem pushed_le (hr : Reachable arena (.start Job.call {} jobs) c) (k : Nat) :
    c.world.pushed.countP (·.origin = k) ≤ 3 := by
  have hpushes := all_le_mul 3 fun t ht => (counts_at hr k ht).2
  rw [all_pushes hr, all_begins hr] at hpushes
  split at hpushes <;> omega

theorem connecting_of_inLoop (hr : Reachable arena (.start Job.call {} jobs) c)
    (ht : t ∈ c.threads) (hloop : InLoop k t.hist) : c.world.Connecting k := by
  have hbegun : tally (begins k) t.hist = 1 := by rw [hloop.begun k, if_pos rfl]
  have hlt : tally (ends k) t.hist < tally (begins k) t.hist := by
    rw [hloop.notThrough k, hbegun]
    exact Nat.one_pos
  have hall := all_lt_all (fun t ht => (counts_at hr k ht).1) ht hlt
  rw [all_ends hr, all_begins hr] at hall
  constructor
  · by_contra hnot
    rw [if_neg hnot] at hall
    omega
  · rw [← List.count_eq_zero]
    split at hall <;> omega

-- ---------------------------------------------------------------------------
-- Where the connections are
-- ---------------------------------------------------------------------------

theorem idles_of_connects {job : Job} (hconnects : job.connects = true) :
    Borrows Made moves job.call := by
  refine Borrows.of_idler ((job_ends job).guar_mono fun h op hasks a => ?_)
  cases op with
  | takeConnection | giveConnection => cases hconnects.symm.trans hasks
  | _ => rfl

theorem job_borrows (job : Job) : Borrows Made moves job.call := by
  cases job with
  | command cmd =>
    obtain ⟨name, reply, hrun⟩ := call_run cmd
    exact Borrows.of_runs (fun op => ⟨op.answer, made_answer op⟩) fun tr e hruns _ =>
      (hrun.ends hruns).settles
  | connect host port password => exact idles_of_connects rfl
  | close =>
    have hclose : Spec (idler Made moves) [] Job.close.call fun _ _ => True :=
      ⟨fun _ => rfl, fun _ _ => ⟨fun _ => rfl, fun _ _ => trivial⟩⟩
    exact Borrows.of_idler hclose

/-- The pool is a supplier: what `connect` pushes is new, and what `close` pops is lost. -/
theorem supplier : Supplier arena moves (fun m => (m.connectionPool : Multiset Redis))
    fun m => (m.pushed : Multiset Redis) where
  take := by
    intro m ev m' conn hact hm
    cases (hact : Acts m ev m') with
    | take hpool =>
      cases hm
      exact ⟨by simp [hpool], rfl⟩
    | _ => cases hm
  give := by
    intro m ev m' conn hact hm
    cases (hact : Acts m ev m') with
    | giveConnection =>
      cases hm
      exact ⟨(Multiset.coe_eq_coe.mpr (List.perm_append_singleton conn _)).le, rfl⟩
    | _ => cases hm
  stay := by
    intro m ev m' hact hm
    cases (hact : Acts m ev m') with
    | @pushConnection m conn =>
      have hsnoc (l : List Redis) : ((l ++ [conn] : List Redis) : Multiset Redis) = l + {conn} :=
        (Multiset.coe_add l [conn]).symm
      exact ⟨{conn}, (hsnoc _).le, hsnoc _⟩
    | take hpool => cases hm
    | giveConnection => cases hm
    | closePool => exact ⟨0, by simp, by simp⟩
    | _ => exact ⟨0, by simp [Manager.finish], by simp [Manager.finish]⟩
  env := nofun

theorem connections_le (hr : Reachable arena (.start Job.call {} jobs) c) :
    (c.world.connectionPool : Multiset Redis) + allHeld moves c.threads ≤ c.world.pushed :=
  supplier.bounded acts_made job_borrows le_rfl hr

end GateServer.RedisMgr
