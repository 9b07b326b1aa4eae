import GateServer.Gateway
import GateServer.Interact.Custody
import GateServer.MySqlDao.Exits

/-!
# Session variables

A procedure leaves its result in a variable of the session, from which a later statement
of the same method reads it. The session belongs to the connection and survives until the
next request borrows it. Each value is marked with the request and the statement that put
it there.
-/

namespace GateServer

open Interact

inductive Variable
  | result
  | loginResult
  | userUid
  | isok
  deriving DecidableEq, Repr

namespace Query

/-- The variables that a procedure assigns on every `CALL` that executes. -/
def assigns : Query → List Variable
  | .regUser .. => [.result]
  | .loginUser .. => [.loginResult, .userUid]
  | .changePasswd .. => [.isok]
  | _ => []

def reads : Query → Option Variable
  | .selectResult => some .result
  | .selectLoginResult => some .loginResult
  | .selectUserUid => some .userUid
  | .selectIsok => some .isok
  | _ => none

end Query

structure Stored where
  cell : Cell
  request : Nat
  query : Query
  deriving DecidableEq, Repr

abbrev Session := Variable → Option Stored

def Session.Marked (request : Nat) (query : Query) (s s' : Session) : Prop :=
  ∀ v, s' v = s v ∨ ∃ cell, s' v = some ⟨cell, request, query⟩

/-- `SELECT @v` of a variable that was never assigned is an SQL null. -/
def Session.Shows (s : Session) (v : Variable) (cell : Cell) : Prop :=
  match s v with
  | some stored => cell = stored.cell
  | none => cell.isNull = true

@[simp] def Op.reaches : Op → Conn → Prop
  | .execute conn _, c | .store conn _, c => conn = c
  | _, _ => False

/-- The effect of an operation on the sessions. A `CALL` that executes assigns its variables;
any other statement may or may not change something. -/
inductive Talks (request : Nat) : (Conn → Session) → Ev → (Conn → Session) → Prop
  | executes : (s conn).Marked request query s' →
      (∀ v ∈ query.assigns, ∃ cell, s' v = some ⟨cell, request, query⟩) →
      Talks request s ⟨.execute conn query, .ok true⟩ (Function.update s conn s')
  | fails : done ≠ .ok true → (s conn).Marked request query s' →
      Talks request s ⟨.execute conn query, done⟩ (Function.update s conn s')
  | selects : query.reads = none → (s conn).Marked request query s' →
      Talks request s ⟨.store conn query, res⟩ (Function.update s conn s')
  | shows : query.reads = some v →
      (∀ rows cell, res = .ok rows → rows.first = some cell → (s conn).Shows v cell) →
      Talks request s ⟨.store conn query, res⟩ s
  | other : (∀ conn, ¬ ev.op.reaches conn) → Talks request s ev s

namespace MysqlDao

open Gateway

abbrev Request := DaoCall × Nat

def sessions : Carrier Ans Request Conn Session where
  reaches := Op.reaches
  act job := Talks job.2
  frame ha hn := by
    cases ha with
    | executes | fails | selects => exact Function.update_of_ne (fun h => hn h.symm) ..
    | shows | other => rfl

-- ---------------------------------------------------------------------------
-- What a request knows of its session
-- ---------------------------------------------------------------------------

/-- The last statement on the connection, if it is a `CALL` that executed, up to selects of
variables. -/
def after (conn : Conn) (last : Option Query) : Ev → Option Query
  | ⟨.acquire .mySql, some c⟩ => if c = conn then none else last
  | ⟨.execute c query, .ok true⟩ => if c = conn then some query else last
  | ⟨.execute c _, _⟩ => if c = conn then none else last
  | ⟨.store c query, _⟩ => if c = conn ∧ query.reads = none then none else last
  | _ => last

def lastCall (conn : Conn) (h : Trace) : Option Query := h.foldl (after conn) none

@[simp] theorem lastCall_snoc (conn : Conn) (h : Trace) (ev : Ev) :
    lastCall conn (h ++ [ev]) = after conn (lastCall conn h) ev := by
  simp [lastCall]

def KnowsOwn (job : Request) (h : Trace) (conn : Conn) (s : Session) : Prop :=
  ∀ query ∈ lastCall conn h, ∀ v ∈ query.assigns, ∃ cell, s v = some ⟨cell, job.2, query⟩

structure Asks (h : Trace) (op : Op) : Prop where
  minds : Minds (moves .mySql) Op.reaches h op
  own : ∀ conn query v, op = .store conn query → query.reads = some v →
    ∃ call ∈ lastCall conn h, v ∈ call.assigns

variable {h : Trace} {conn : Conn}

theorem after_take (hm : moves .mySql ev = .take conn) (last : Option Query) :
    after conn last ev = none := by
  obtain ⟨op, a⟩ := ev
  cases op with
  | acquire pool =>
    cases a with
    | none => cases hm
    | some c =>
      simp only [moves] at hm
      split at hm
      · subst pool
        cases hm
        simp [after]
      · cases hm
  | release pool c =>
    simp only [moves] at hm
    split at hm <;> cases hm
  | _ => cases hm

theorem after_unreached {ev : Ev} (hn : ¬ ev.op.reaches conn) (hq : query ∈ after conn last ev) :
    query ∈ last := by
  unfold after at hq
  split at hq <;> simp_all

theorem after_fails (hd : done ≠ .ok true) (last : Option Query) :
    after conn last ⟨.execute conn query, done⟩ = none := by
  rcases done with w | done | done
  · simp [after]
  · simp [after]
  · exact absurd rfl hd

theorem knowsOwn_kept {job : Request} {s s' : Conn → Session} (ht : Talks job.2 s ev s')
    (hk : KnowsOwn job h conn (s conn)) : KnowsOwn job (h ++ [ev]) conn (s' conn) := by
  intro query hlast v hv
  rw [lastCall_snoc] at hlast
  by_cases hn : ev.op.reaches conn
  · cases ht with
    | executes _ hassigns =>
      obtain rfl := hn
      simp only [after, if_true, Option.mem_def, Option.some.injEq] at hlast
      subst query
      simpa using hassigns v hv
    | fails hdone =>
      obtain rfl := hn
      simp [after_fails hdone] at hlast
    | selects hreads =>
      obtain rfl := hn
      simp [after, hreads] at hlast
    | shows hreads =>
      simp only [after, hreads, reduceCtorEq, and_false, if_false] at hlast
      exact hk query hlast v hv
    | other hnot => exact absurd hn (hnot conn)
  · rw [sessions.frame ht hn]
    exact hk query (after_unreached hn hlast) v hv

theorem knowsOwn : Knowledge (moves .mySql) sessions Asks KnowsOwn where
  minds := Asks.minds
  taken hm query hlast := by simp [after_take hm] at hlast
  kept _ ht hk := knowsOwn_kept ht hk

-- ---------------------------------------------------------------------------
-- What the methods ask
-- ---------------------------------------------------------------------------

/-- The rest of a loan: one connection is used, a variable is selected only after a `CALL` that
assigns it, and nothing follows the release. -/
def Orderly (conn : Conn) : Option Query → Trace → Prop
  | _, [] => True
  | last, ev :: tr =>
    match ev.op with
    | .push .. => Orderly conn last tr
    | .execute c _ => c = conn ∧ Orderly conn (after conn last ev) tr
    | .store c query => c = conn ∧ (∀ v ∈ query.reads, ∃ call ∈ last, v ∈ call.assigns) ∧
        Orderly conn (after conn last ev) tr
    | .release pool c => pool = .mySql ∧ c = conn ∧ tr = []
    | _ => False

theorem asks_acquire (h : Trace) (pool : Pool) : Asks h (.acquire pool) where
  minds := ⟨fun a c hm => absurd hm (acquire_ne_give .mySql pool a c), fun _ hr => hr.elim⟩
  own := nofun

theorem asks_push (h : Trace) (level : LogLevel) (message : String) :
    Asks h (.push level message) where
  minds := ⟨nofun, fun _ hr => hr.elim⟩
  own := nofun

theorem asks_execute (hc : conn ∈ held (moves .mySql) h) (query : Query) :
    Asks h (.execute conn query) where
  minds := ⟨nofun, fun _ hr => hr ▸ hc⟩
  own := nofun

theorem asks_store (hc : conn ∈ held (moves .mySql) h)
    (hv : ∀ v ∈ query.reads, ∃ call ∈ lastCall conn h, v ∈ call.assigns) :
    Asks h (.store conn query) where
  minds := ⟨nofun, fun _ hr => hr ▸ hc⟩
  own _ _ v ho hreads := by
    cases ho
    exact hv v hreads

theorem asks_release (hc : conn ∈ held (moves .mySql) h) : Asks h (.release .mySql conn) where
  minds := by
    refine ⟨fun _ c hm => ?_, fun _ hr => hr.elim⟩
    cases (moves_release ..).symm.trans hm
    exact hc
  own := nofun

theorem Orderly.guarded (ho : Orderly conn (lastCall conn h) tr)
    (hh : conn ∈ held (moves .mySql) h) : Guarded Asks h tr := by
  induction tr generalizing h with
  | nil => trivial
  | cons ev tr ih =>
    obtain ⟨op, a⟩ := ev
    cases op with
    | push level message =>
      refine ⟨asks_push .., ih ?_ ?_⟩
      · rw [lastCall_snoc]
        exact ho
      · rwa [held_stay rfl]
    | execute c query =>
      obtain ⟨rfl, ho⟩ := ho
      refine ⟨asks_execute hh query, ih ?_ ?_⟩
      · rwa [lastCall_snoc]
      · rwa [held_stay rfl]
    | store c query =>
      obtain ⟨rfl, hreads, ho⟩ := ho
      refine ⟨asks_store hh hreads, ih ?_ ?_⟩
      · rwa [lastCall_snoc]
      · rwa [held_stay rfl]
    | release pool c =>
      obtain ⟨rfl, rfl, rfl⟩ := ho
      exact ⟨asks_release hh, trivial⟩
    | _ => exact ho.elim

theorem guarded_loan (ho : Orderly conn none tr) :
    Guarded Asks [] (⟨.acquire .mySql, some conn⟩ :: tr) := by
  have horderly : Orderly conn (lastCall conn ([] ++ [⟨.acquire .mySql, some conn⟩])) tr := by
    simpa [lastCall, after] using ho
  exact ⟨asks_acquire .., horderly.guarded (by simp [held, taken, givenBack, moves])⟩

theorem guarded_noConn : Guarded Asks [] [⟨.acquire .mySql, none⟩, ⟨.push l m, ()⟩] :=
  ⟨asks_acquire .., asks_push .., trivial⟩

theorem callRun_asks {call select : Query} (hs : ∀ v ∈ select.reads, v ∈ call.assigns)
    (hr : CallRun noConn call select tr r) : Guarded Asks [] tr := by
  cases hr with
  | noConn => exact guarded_noConn
  | refused | callThrew => exact guarded_loan (by simp [Orderly])
  | answered | noRow | selectThrew =>
    exact guarded_loan (by simpa [Orderly, after] using hs)

theorem loginRun_asks (hr : LoginRun pwd user isEmail tr e) : Guarded Asks [] tr := by
  cases hr with
  | noConn => exact guarded_noConn
  | _ => exact guarded_loan (by simp [Orderly, after, Query.reads, Query.assigns])

theorem existsRun_asks (hr : ExistsRun email uid tr e) : Guarded Asks [] tr := by
  cases hr with
  | noConn => exact guarded_noConn
  | _ => exact guarded_loan (by simp [Orderly, Query.reads])

theorem iconRun_asks (hr : IconRun uid tr data) : Guarded Asks [] tr := by
  cases hr with
  | noConn => exact guarded_noConn
  | _ => exact guarded_loan (by simp [Orderly, Query.reads])

theorem uidRun_asks (hr : UidRun libs email tr e) : Guarded Asks [] tr := by
  cases hr with
  | noConn => exact guarded_noConn
  | _ => exact guarded_loan (by simp [Orderly, Query.reads])

-- ---------------------------------------------------------------------------
-- What the methods return
-- ---------------------------------------------------------------------------

def outcome (libs : Libs) : DaoCall → Act (Σ call : DaoCall, call.Result)
  | .regUser name email pwd => (⟨.regUser name email pwd, ·⟩) <$> regUser name email pwd
  | .loginUser pwd user isEmail => (⟨.loginUser pwd user isEmail, ·⟩) <$> loginUser pwd user isEmail
  | .existsUser email uid => (⟨.existsUser email uid, ·⟩) <$> existsUser email uid
  | .changePasswd email uid newPasswd => (⟨.changePasswd email uid newPasswd, ·⟩) <$>
      changePasswdWhenUserForgetPasswd email uid newPasswd
  | .getUserIcon uid => (⟨.getUserIcon uid, ·⟩) <$> getUserIcon uid
  | .getUserUid email => (⟨.getUserUid email, ·⟩) <$> getUserUid libs email

theorem runs_map {p : Act α} {f : α → β} (h : Runs (f <$> p) tr e) :
    ∃ e', Runs p tr e' ∧ ∀ b, e = .ret b → ∃ a, e' = .ret a ∧ b = f a := by
  have hspec : Spec .any [] (f <$> p) fun tr e =>
      ∃ e', Runs p tr e' ∧ ∀ b, e = .ret b → ∃ a, e' = .ret a ∧ b = f a := by
    rw [map_eq_pure_bind]
    apply (spec_run p).bind
    rintro _ e ⟨tr, rfl, hrun⟩
    cases e with
    | ret a => exact ⟨_, hrun, fun b hb => ⟨a, rfl, by cases hb; rfl⟩⟩
    | threw w => exact ⟨_, hrun, nofun⟩
    | undef u => exact ⟨_, hrun, nofun⟩
  exact hspec.ends h

theorem outcome_asks (hr : Runs (outcome libs call) tr e) : Guarded Asks [] tr := by
  cases call with
  | regUser name email pwd =>
    obtain ⟨_, hrun, -⟩ := runs_map hr
    obtain ⟨r, -, h⟩ := regUser_runs hrun
    exact callRun_asks (by simp [Query.reads, Query.assigns]) h
  | loginUser pwd user isEmail =>
    obtain ⟨_, hrun, -⟩ := runs_map hr
    exact loginRun_asks (loginUser_ok.ends hrun)
  | existsUser email uid =>
    obtain ⟨_, hrun, -⟩ := runs_map hr
    exact existsRun_asks (existsUser_ok.ends hrun)
  | changePasswd email uid newPasswd =>
    obtain ⟨_, hrun, -⟩ := runs_map hr
    obtain ⟨r, -, h⟩ := changePasswd_runs hrun
    exact callRun_asks (by simp [Query.reads, Query.assigns]) h
  | getUserIcon uid =>
    obtain ⟨_, hrun, -⟩ := runs_map hr
    obtain ⟨r, -, h⟩ := getUserIcon_runs hrun
    exact iconRun_asks h
  | getUserUid email =>
    obtain ⟨_, hrun, -⟩ := runs_map hr
    exact uidRun_asks (getUserUid_ok.ends hrun)

def Selected (tr : Trace) (v : Variable) (cell : Cell) : Prop :=
  ∃ conn query res, ⟨.store conn query, .ok res⟩ ∈ tr ∧ query.reads = some v ∧
    res.first = some cell

/-- The codes that a method returns without having read a result. -/
def OwnCode (r : Int) : Prop := r = ErrorCodes.rpcFail ∨ r = ErrorCodes.mySqlError

/-- A method returns a code of its own, or the number in a cell that it has read. -/
def Reports (read : Variable → Cell → Prop) : (Σ call : DaoCall, call.Result) → Prop
  | ⟨.regUser .., r⟩ => OwnCode r ∨ ∃ cell, read .result cell ∧ r = atoi cell.data
  | ⟨.changePasswd .., r⟩ => OwnCode r ∨ ∃ cell, read .isok cell ∧ r = atoi cell.data
  | ⟨.loginUser _ user _, (r, user')⟩ =>
    (OwnCode r ∨ ∃ cell, read .loginResult cell ∧ r = atoi cell.data) ∧
    (user' = user ∨
      ∃ cell, read .userUid cell ∧ user' = { user with uid := toUInt64 (atoi cell.data) })
  | _ => True

theorem Reports.mono {read read' : Variable → Cell → Prop}
    (hread : ∀ v cell, read v cell → read' v cell) (hr : Reports read out) :
    Reports read' out := by
  obtain ⟨call, r⟩ := out
  cases call with
  | regUser => exact hr.imp_right fun ⟨cell, h, heq⟩ => ⟨cell, hread _ _ h, heq⟩
  | changePasswd => exact hr.imp_right fun ⟨cell, h, heq⟩ => ⟨cell, hread _ _ h, heq⟩
  | loginUser =>
    obtain ⟨hr, hu⟩ := hr
    exact ⟨hr.imp_right fun ⟨cell, h, heq⟩ => ⟨cell, hread _ _ h, heq⟩,
      hu.imp_right fun ⟨cell, h, heq⟩ => ⟨cell, hread _ _ h, heq⟩⟩
  | _ => trivial

theorem callRun_reports {code : ErrorCodes} (hcode : OwnCode code) (hs : select.reads = some v)
    (hr : CallRun code call select tr r) :
    OwnCode r ∨ ∃ cell, Selected tr v cell ∧ r = atoi cell.data := by
  cases hr with
  | noConn => exact .inl hcode
  | refused => exact .inl (.inr rfl)
  | @answered cell conn res _ _ hres =>
    exact .inr ⟨cell, ⟨conn, select, res, by simp, hs, hres⟩, rfl⟩
  | noRow | callThrew | selectThrew => exact .inl (.inl rfl)

theorem loginRun_reports (hr : LoginRun pwd user isEmail tr (.ret out)) :
    Reports (Selected tr) ⟨.loginUser pwd user isEmail, out⟩ := by
  cases hr with
  | @answered cell conn res uid _ _ hres =>
    refine ⟨.inr ⟨cell, ⟨conn, .selectLoginResult, res, by simp, rfl, hres⟩, rfl⟩, ?_⟩
    unfold withUid
    split
    · next cell' huid =>
        exact .inr ⟨cell', ⟨conn, .selectUserUid, uid, by simp, rfl, huid⟩, rfl⟩
    · exact .inl rfl
  | _ => exact ⟨.inl (.inr rfl), .inl rfl⟩

theorem outcome_reports (hr : Runs (outcome libs call) tr (.ret out)) :
    Reports (Selected tr) out := by
  cases call with
  | regUser name email pwd =>
    obtain ⟨_, hrun, hout⟩ := runs_map hr
    obtain ⟨r, rfl, rfl⟩ := hout _ rfl
    obtain ⟨_, heq, h⟩ := regUser_runs hrun
    cases heq
    exact callRun_reports (.inl rfl) rfl h
  | loginUser pwd user isEmail =>
    obtain ⟨_, hrun, hout⟩ := runs_map hr
    obtain ⟨r, rfl, rfl⟩ := hout _ rfl
    exact loginRun_reports (loginUser_ok.ends hrun)
  | changePasswd email uid newPasswd =>
    obtain ⟨_, hrun, hout⟩ := runs_map hr
    obtain ⟨r, rfl, rfl⟩ := hout _ rfl
    obtain ⟨_, heq, h⟩ := changePasswd_runs hrun
    cases heq
    exact callRun_reports (.inr rfl) rfl h
  | existsUser | getUserIcon | getUserUid =>
    obtain ⟨_, -, hout⟩ := runs_map hr
    obtain ⟨r, -, rfl⟩ := hout _ rfl
    trivial

-- ---------------------------------------------------------------------------
-- Whose results they are
-- ---------------------------------------------------------------------------

def StoredBy (job : Request) (s : Session) (v : Variable) (cell : Cell) : Prop :=
  ∃ call, v ∈ call.assigns ∧ s v = some ⟨cell, job.2, call⟩

abbrev Past := List (Moment Ans Request Conn Session)

/-- The request read this cell from the variable at a moment when its own `CALL` had set it. -/
def ReadOwn (ms : Past) (job : Request) (v : Variable) (cell : Cell) : Prop :=
  ∃ conn query res s, ⟨job, ⟨.store conn query, .ok res⟩, s⟩ ∈ ms ∧ query.reads = some v ∧
    res.first = some cell ∧ StoredBy job (s conn) v cell

theorem outcome_spec (libs : Libs) (call : DaoCall) :
    Spec ⟨fun _ => True, Asks⟩ [] (outcome libs call) fun _ _ => True :=
  Spec.of_runs (fun op => ⟨op.answer, trivial⟩) fun _ _ hrun _ => ⟨outcome_asks hrun, trivial⟩

theorem moments_own {g : Gateway Accounts} {jobs : List Request}
    (hn : (g.pools .mySql).conns.Nodup)
    (hr : Carries (arena Accounts) sessions (.start (fun job => outcome libs job.1) g jobs) s₀ c s
      ms) (hm : ⟨job, ⟨.store conn query, .ok res⟩, carried⟩ ∈ ms) (hv : query.reads = some v)
    (hcell : res.first = some cell) : StoredBy job (carried conn) v cell := by
  obtain ⟨h, s', hasks, ht, hknows⟩ := knowsOwn.at_moment (keeps (by decide))
    (fun job => outcome_spec libs job.1) hn hr _ hm
  obtain ⟨call, hlast, hassigns⟩ := hasks.own _ _ _ rfl hv
  have hheld : conn ∈ held (moves .mySql) h := hasks.minds.reaches conn rfl
  obtain ⟨cell', hstored⟩ := hknows conn hheld call hlast v hassigns
  cases ht with
  | selects hreads => cases hreads.symm.trans hv
  | shows hreads hshows =>
    cases hreads.symm.trans hv
    have hsame : cell = cell' := by
      have hshown := hshows _ _ rfl hcell
      unfold Session.Shows at hshown
      rwa [hstored] at hshown
    exact ⟨call, hassigns, hsame ▸ hstored⟩
  | other hnot => exact absurd rfl (hnot conn)

/-- A request, identified by its position, reads from a session variable only what its own
`CALL` put there, and returns a code of its own or what it has read. -/
theorem results_are_own {g : Gateway Accounts} {calls : List DaoCall}
    (hn : (g.pools .mySql).conns.Nodup)
    (hr : Carries (arena Accounts) sessions
      (.start (fun job => outcome libs job.1) g calls.zipIdx) s₀ c s ms) :
    (∀ job conn query res v cell carried, ⟨job, ⟨.store conn query, .ok res⟩, carried⟩ ∈ ms →
      query.reads = some v → res.first = some cell → StoredBy job (carried conn) v cell) ∧
    ∀ t ∈ c.threads, ∀ out, t.rest = .done (.ret out) → Reports (ReadOwn ms t.job) out := by
  refine ⟨fun _ _ _ _ _ _ _ hm hv hcell => moments_own hn hr hm hv hcell, fun t ht out hout => ?_⟩
  have hrun := hr.reachable.steps t ht
  rw [hout] at hrun
  apply (outcome_reports hrun).mono
  rintro v cell ⟨conn, query, res, hmem, hv, hcell⟩
  obtain ⟨carried, hm⟩ := hr.had_moment t ht _ hmem
  exact ⟨conn, query, res, carried, hm, hv, hcell, moments_own hn hr hm hv hcell⟩

/-- A session that still has the result of an earlier registration. -/
def staleSession : Conn → Session := fun _ => fun
  | .result => some ⟨⟨"1005", false⟩, 9, .regUser "x" "y" "z"⟩
  | _ => none

def freshSession : Session := fun
  | .result => some ⟨⟨"0", false⟩, 0, .regUser "n" "p" "e"⟩
  | _ => none

def registered : Request := ⟨.regUser "n" "e" "p", 0⟩

def registeredPast : Past :=
  [⟨registered, ⟨.acquire .mySql, some 0⟩, staleSession⟩,
    ⟨registered, ⟨.execute 0 (.regUser "n" "p" "e"), .ok true⟩, staleSession⟩,
    ⟨registered, ⟨.store 0 .selectResult, .ok ⟨true, [⟨"0", false⟩]⟩⟩,
      Function.update staleSession 0 freshSession⟩,
    ⟨registered, ⟨.push .info "User register result: 0", ()⟩,
      Function.update staleSession 0 freshSession⟩,
    ⟨registered, ⟨.release .mySql 0, ()⟩, Function.update staleSession 0 freshSession⟩]

theorem registered_carries : Carries (arena Nat) sessions
    (.start (fun job => outcome (.ofBodies []) job.1) (opened [0])
      [DaoCall.regUser "n" "e" "p"].zipIdx)
    staleSession
    ⟨((opened [0]).setPool .mySql ⟨[], false⟩).setPool .mySql ⟨[0], false⟩,
      [⟨registered, registeredPast.map Moment.ev,
        .done (.ret ⟨.regUser "n" "e" "p", (0 : Int)⟩)⟩]⟩
    (Function.update staleSession 0 freshSession) registeredPast := by
  refine Carries.alone (.call _ (.call _ (.call _ (.call _ (.call _ .refl))))) ?_
  refine .cons (.get MySqlPool.Gets.front) (.other nofun) ?_
  refine .cons (.execute 0) (.executes (show Session.Marked _ _ _ freshSession from ?_) ?_) ?_
  · rintro ⟨⟩ <;> simp [freshSession, staleSession]
  · rintro v hv
    cases List.mem_singleton.mp hv
    exact ⟨_, rfl⟩
  refine .cons (.quiet trivial) (.shows rfl ?_) ?_
  · rintro rows cell ⟨⟩ hcell
    cases hcell
    simp [Session.Shows, freshSession]
  refine .cons (.quiet trivial) (.other nofun) ?_
  exact .cons (.takeBack MySqlPool.TakesBack.pushed) (.other nofun) .nil

theorem results_are_own_registered :
    Reports (ReadOwn registeredPast registered) ⟨.regUser "n" "e" "p", (0 : Int)⟩ :=
  (results_are_own (by decide) registered_carries).2 _ (.head _) _ rfl

end MysqlDao
end GateServer
