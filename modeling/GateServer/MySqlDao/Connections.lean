import GateServer.Gateway
import GateServer.MySqlDao.Exits

/-!
# The MySQL connections of the data-access layer

Each method is a borrower of the MySQL pool as long as the database answers without an
exception and with the rows that it reads.
-/

namespace GateServer.MysqlDao

open Interact Gateway

def perform (libs : Libs) : DaoCall → Act Unit
  | .regUser name email pwd => do let _ ← regUser name email pwd
  | .loginUser pwd user isEmail => do let _ ← loginUser pwd user isEmail
  | .existsUser email uid => do let _ ← existsUser email uid
  | .changePasswd email uid newPasswd => do
    let _ ← changePasswdWhenUserForgetPasswd email uid newPasswd
  | .getUserIcon uid => do let _ ← getUserIcon uid
  | .getUserUid email => do let _ ← getUserUid libs email

/-- The queries that read a row without a test find one. -/
def Served (libs : Libs) : Query → StoreQueryResult → Prop
  | .selectLoginResult, res | .selectUidByEmail _, res => ∃ cell, res.first = some cell
  | .selectGetUserUid _, res =>
    res.ok = true → ∃ cell rows, res.rows = cell :: rows ∧ (libs.truth cell).isSome
  | _, _ => True

/-- The answers after which a method reaches a release of its connection. -/
@[simp] def LetsRelease (libs : Libs) : Ev → Prop
  | ⟨.execute _ _, done⟩ => ∃ b, done = .ok b
  | ⟨.store _ query, res⟩ => ∃ r, res = .ok r ∧ Served libs query r
  | _ => True

theorem letsRelease_answerable (op : Op) : ∃ a, LetsRelease libs ⟨op, a⟩ := by
  cases op with
  | execute => exact ⟨.ok true, true, rfl⟩
  | store conn q =>
    cases q with
    | selectLoginResult => exact ⟨.ok ⟨true, [⟨"", false⟩]⟩, _, rfl, _, rfl⟩
    | selectUidByEmail => exact ⟨.ok ⟨true, [⟨"", false⟩]⟩, _, rfl, _, rfl⟩
    | selectGetUserUid => exact ⟨.ok ⟨false, []⟩, _, rfl, fun h => nomatch h⟩
    | _ => exact ⟨.ok ⟨false, []⟩, _, rfl, trivial⟩
  | _ => exact ⟨Op.answer _, trivial⟩

-- ---------------------------------------------------------------------------
-- Each method
-- ---------------------------------------------------------------------------

theorem callRun_settles (hr : CallRun noConn call select tr r)
    (hq : ∀ res, Served libs select res) :
    Settles (moves .mySql) tr ↔ ∀ ev ∈ tr, LetsRelease libs ev := by
  cases hr with
  | noConn => exact iff_of_true (settles_null (by simp)) (by simp)
  | refused =>
    exact iff_of_true (settles_once (m := [_, _]) (t := []) (by simp) (by simp))
      (by simp)
  | answered | noRow =>
    exact iff_of_true (settles_once (m := [_, _, _]) (t := []) (by simp) (by simp))
      (by simp [hq])
  | callThrew => exact iff_of_false (leaks (by simp)) (by simp)
  | selectThrew =>
    exact iff_of_false (leaks (by simp)) (by simp)

theorem loginRun_settles (hr : LoginRun pwd user isEmail tr e) :
    Settles (moves .mySql) tr ↔ ∀ ev ∈ tr, LetsRelease libs ev := by
  cases hr with
  | noConn => exact iff_of_true (settles_null (by simp)) (by simp)
  | refused =>
    exact iff_of_true (settles_once (m := [_, _]) (t := []) (by simp) (by simp))
      (by simp)
  | answered hres =>
    exact iff_of_true (settles_once (m := [_, _, _, _]) (t := []) (by simp) (by simp))
      (by simp [Served, hres])
  | noRow hres => exact iff_of_false (leaks (by simp)) (by simp [Served, hres])
  | callThrew => exact iff_of_false (leaks (by simp)) (by simp)
  | selectThrew => exact iff_of_false (leaks (by simp)) (by simp)
  | uidThrew => exact iff_of_false (leaks (by simp)) (by simp)

theorem existsRun_settles (hr : ExistsRun email uid tr e) :
    Settles (moves .mySql) tr ↔ ∀ ev ∈ tr, LetsRelease libs ev := by
  cases hr with
  | noConn => exact iff_of_true (settles_null (by simp)) (by simp)
  | same hres | other hres =>
    exact iff_of_true (settles_once (m := [_, _, _]) (t := []) (by simp) (by simp))
      (by simp [Served, hres])
  | noRow hres => exact iff_of_false (leaks (by simp)) (by simp [Served, hres])
  | selectThrew => exact iff_of_false (leaks (by simp)) (by simp)

theorem iconRun_settles (hr : IconRun uid tr data) :
    Settles (moves .mySql) tr ↔ ∀ ev ∈ tr, LetsRelease libs ev := by
  cases hr with
  | noConn => exact iff_of_true (settles_null (by simp)) (by simp)
  | answered =>
    exact iff_of_true (settles_once (m := [_]) (t := []) (by simp) (by simp))
      (by simp [Served])
  | selectThrew => exact iff_of_false (leaks (by simp)) (by simp)

theorem uidRun_settles (hr : UidRun libs email tr e) :
    Settles (moves .mySql) tr ↔ ∀ ev ∈ tr, LetsRelease libs ev := by
  cases hr with
  | noConn => exact iff_of_true (settles_null (by simp)) (by simp)
  | failed hok =>
    exact iff_of_true (settles_once (m := [_]) (t := []) (by simp) (by simp))
      (by simp [Served, hok])
  | noRow hok hrows =>
    exact iff_of_false (leaks (by simp)) (by simp [Served, hok, hrows])
  | noTruth hok hrows htruth =>
    exact iff_of_false (leaks (by simp)) (by simp [Served, hok, hrows, htruth])
  | zero hok hrows htruth | answered hok hrows htruth =>
    exact iff_of_true (settles_once (m := [_]) (t := []) (by simp) (by simp))
      (by simp [Served, hrows, htruth])
  | selectThrew => exact iff_of_false (leaks (by simp)) (by simp)

-- ---------------------------------------------------------------------------
-- All of them
-- ---------------------------------------------------------------------------

theorem runs_of_discard {p : Act α} (h : Runs (do let _ ← p) tr (e : Exit Unit)) :
    ∃ e', Runs p tr e' := by
  have hspec : Spec .any [] (do let _ ← p : Act Unit) fun tr _ => ∃ e', Runs p tr e' := by
    apply (spec_run p).bind
    rintro _ e ⟨tr, rfl, hrun⟩
    cases e <;> exact ⟨_, hrun⟩
  exact hspec.ends h

theorem perform_settles {call : DaoCall} (hr : Runs (perform libs call) tr e) :
    Settles (moves .mySql) tr ↔ ∀ ev ∈ tr, LetsRelease libs ev := by
  obtain ⟨e', hr⟩ : ∃ e', Runs (perform libs call) tr e' := ⟨e, hr⟩
  cases call with
  | regUser name email pwd =>
    obtain ⟨e, hr⟩ := runs_of_discard hr
    obtain ⟨r, -, h⟩ := regUser_runs hr
    exact callRun_settles h fun _ => trivial
  | loginUser pwd user isEmail =>
    obtain ⟨e, hr⟩ := runs_of_discard hr
    exact loginRun_settles (loginUser_ok.ends hr)
  | existsUser email uid =>
    obtain ⟨e, hr⟩ := runs_of_discard hr
    exact existsRun_settles (existsUser_ok.ends hr)
  | changePasswd email uid newPasswd =>
    obtain ⟨e, hr⟩ := runs_of_discard hr
    obtain ⟨r, -, h⟩ := changePasswd_runs hr
    exact callRun_settles h fun _ => trivial
  | getUserIcon uid =>
    obtain ⟨e, hr⟩ := runs_of_discard hr
    obtain ⟨r, -, h⟩ := (getUserIcon_ok.ends hr).exists
    exact iconRun_settles h
  | getUserUid email =>
    obtain ⟨e, hr⟩ := runs_of_discard hr
    exact uidRun_settles (getUserUid_ok.ends hr)

theorem perform_borrows (call : DaoCall) :
    Borrows (LetsRelease libs) (moves .mySql) (perform libs call) :=
  Borrows.of_runs letsRelease_answerable fun _ _ hrun hev => (perform_settles hrun).mpr hev

/-- The MySQL connections are conserved by any interleaving of calls with such answers, and a
call with any other answer loses its connection. -/
theorem dao_conserves_mySql {g : Gateway Accounts} {jobs : List DaoCall}
    (hr : Reachable (arena Accounts) (.start (perform libs) g jobs) c) :
    (AllFit (fun _ => LetsRelease libs) c → Opened .mySql c.world →
      Conserved (moves .mySql) (idle .mySql g) (idle .mySql c.world) c.threads) ∧
    ∀ t ∈ c.threads, t.Finished →
      (Settles (moves .mySql) t.hist ↔ ∀ ev ∈ t.hist, LetsRelease libs ev) := by
  constructor
  · intro hf ho
    exact (lends (by decide)).conserved perform_borrows hr hf ho
  · rintro t ht ⟨e, he⟩
    have hrun := hr.steps t ht
    rw [he] at hrun
    exact perform_settles hrun

def foundTrace : Trace :=
  [⟨.acquire .mySql, some 0⟩, ⟨.store 0 (.selectUidByEmail "e"), .ok ⟨true, [⟨"7", false⟩]⟩⟩,
    ⟨.push .info "Checking user existence for email: e", ()⟩, ⟨.push .info "User exists: e", ()⟩,
    ⟨.release .mySql 0, ()⟩]

theorem foundTrace_reachable : Reachable (arena Nat)
    (.start (perform (.ofBodies [])) (opened [0]) [.existsUser "e" "7"])
    ⟨((opened [0]).setPool .mySql ⟨[], false⟩).setPool .mySql ⟨[0], false⟩,
      [⟨.existsUser "e" "7", foundTrace, .done (.ret ())⟩]⟩ := by
  refine Reachable.alone (.call _ (.call _ (.call _ (.call _ (.call _ .refl))))) ?_
  refine .cons (.get MySqlPool.Gets.front) (.cons (.quiet trivial) (.cons (.quiet trivial) ?_))
  exact .cons (.quiet trivial) (.cons (.takeBack MySqlPool.TakesBack.pushed) .nil)

theorem dao_conserves_mySql_found :
    Conserved (moves .mySql) {0} {0}
      [⟨DaoCall.existsUser "e" "7", foundTrace, (.done (.ret ()) : Act Unit)⟩] := by
  refine (dao_conserves_mySql foundTrace_reachable).1 ?_ rfl
  intro t ht
  cases List.mem_singleton.mp ht
  simp [foundTrace, LetsRelease, Served, StoreQueryResult.first]

/-- The table has no row for the email, and the connection is lost. -/
theorem dao_leaks_mySql : ∃ c, Reachable (arena Nat)
    (.start (perform (.ofBodies [])) (opened [0]) [.existsUser "e" "7"]) c ∧
    Opened .mySql c.world ∧
    ¬ Conserved (moves .mySql) (idle .mySql (opened [0])) (idle .mySql c.world) c.threads := by
  refine ⟨⟨(opened [0]).setPool .mySql ⟨[], false⟩, [⟨.existsUser "e" "7",
    [⟨.acquire .mySql, some 0⟩, ⟨.store 0 (.selectUidByEmail "e"), .ok ⟨true, []⟩⟩],
    .done (.undef .offEnd)⟩]⟩, Reachable.alone ?_ ?_, rfl, fun hc => ?_⟩
  · exact .call _ (.call _ .refl)
  · exact .cons (.get MySqlPool.Gets.front) (.cons (.quiet trivial) .nil)
  · have hback := congrArg Multiset.card (hc.back _ (List.mem_singleton.mpr rfl) ⟨_, rfl⟩)
    simp [givenBack, taken, moves] at hback

end GateServer.MysqlDao
