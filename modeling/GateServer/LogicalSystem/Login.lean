import Mathlib.Tactic.NthRewrite
import GateServer.LogicalSystem.Exits
import GateServer.MySqlDao.Exits

/-!
# Accepted logins

The handler accepts a login that none of three numbers rejects: the id that the login
returned, the id of the email, and the status of the token.
-/

namespace GateServer.LogicalSystem

open Interact

-- ---------------------------------------------------------------------------
-- Failing closed
-- ---------------------------------------------------------------------------

/-- The login was executed, its result was read and is no rejection, and the status service
assigned a chat server. -/
structure Accepted (tr : Trace) : Prop where
  executed : ∃ email pwd uid isEmail, (.loginUser email pwd uid isEmail, true) ∈ executed tr
  result : ∃ res cell, (.selectLoginResult, res) ∈ selected tr ∧ res.first = some cell ∧
    atoi cell.data ≠ -1 ∧ atoi cell.data ≠ -2
  assigned : ∃ uid status respon, (uid, status, respon) ∈ chatServers tr ∧ status.ok = true ∧
    respon.error = ErrorCodes.success

structure FailsClosed (tr : Trace) (e : Exit Bool) : Prop where
  ends : ∃ x, e = .ret x
  success : ∀ doc ∈ replies tr, doc.Succeeds → Accepted tr
  failure : ¬ Accepted tr →
    replies tr ≠ [] ∧ ∀ doc ∈ replies tr, doc.Fails ∧ doc.member "token" = none

/-- The answers that decide a login: rows where they are read, a stub, and no error in an OK of
the status service. -/
@[simp] def Decides (libs : Libs) : Ev → Prop
  | ⟨.acquire .status, stub⟩ => ∃ s, stub = some s
  | ⟨.store _ .selectLoginResult, res⟩ => ∀ r, res = .ok r → ∃ cell, r.first = some cell
  | ⟨.store _ (.selectGetUserUid _), res⟩ => ∃ r, res = .ok r ∧
    (r.ok = true → ∃ cell rows, r.rows = cell :: rows ∧ (libs.truth cell).isSome)
  | ⟨.getChatServer _ _, (status, respon)⟩ => status.ok = true → respon.error = ErrorCodes.success
  | _ => True

theorem not_failsClosed_threw : ¬ FailsClosed tr (.threw w) := by
  intro h
  obtain ⟨x, hx⟩ := h.ends
  cases hx

theorem not_failsClosed_undef : ¬ FailsClosed tr (.undef u) := by
  intro h
  obtain ⟨x, hx⟩ := h.ends
  cases hx

theorem failsClosed_turnedDown (hrep : replies tr = [doc]) (hd : TurnedDown doc) :
    FailsClosed tr (.ret x) where
  ends := ⟨x, rfl⟩
  success := by
    intro doc' hdoc hs
    rw [hrep, List.mem_singleton] at hdoc
    exact absurd (hdoc ▸ hs) hd.1.not_succeeds
  failure := by
    intro _
    simp only [hrep, List.mem_singleton, forall_eq]
    exact ⟨by simp, hd⟩

theorem failsClosed_loggedIn (hrep : replies tr = [doc]) (hd : LoggedIn doc uid token) :
    FailsClosed tr (.ret x) ↔ Accepted tr := by
  constructor
  · intro h
    exact h.success doc (by simp [hrep]) hd.1
  · intro ha
    exact ⟨⟨x, rfl⟩, fun _ _ _ => ha, fun h => absurd ha h⟩

theorem loginRun_decides (hr : MysqlDao.LoginRun pwd user isEmail tr e) :
    (∀ ev ∈ tr, Decides libs ev) ↔ e.Defined := by
  cases hr with
  | answered hres => simp [hres]
  | uidThrew hres => simp [hres]
  | noRow hres => simp [hres]
  | _ => simp

theorem loginRun_accepted (hr : MysqlDao.LoginRun pwd user isEmail tr (.ret (result, user')))
    (h0 : result ≠ ErrorCodes.mySqlError) :
    (.loginUser user.email pwd user.uid isEmail, true) ∈ executed tr ∧
    ∃ res cell uid, (.selectLoginResult, res) ∈ selected tr ∧ res.first = some cell ∧
      result = atoi cell.data ∧ (.selectUserUid, uid) ∈ selected tr ∧
      user' = MysqlDao.withUid user uid := by
  cases hr with
  | @answered cell conn res uid _ _ hres =>
    exact ⟨by simp [executed], res, cell, uid, by simp [selected], hres, rfl,
      by simp [selected], rfl⟩
  | _ => exact absurd rfl h0

theorem uidRun_decides (hr : MysqlDao.UidRun libs email tr e) :
    (∀ ev ∈ tr, Decides libs ev) ↔ e.Defined := by
  cases hr with
  | noConn => simp
  | selectThrew => simp
  | failed hok => simp [hok]
  | noRow hok hrows => simp [hok, hrows]
  | noTruth hok hrows htruth => simp [hok, hrows, htruth]
  | zero hok hrows htruth => simp [hrows, htruth]
  | answered hok hrows htruth => simp [hrows, htruth]

theorem loginUser_not_threw (hr : Runs (MysqlDao.loginUser pwd user isEmail) tr (.threw w)) :
    False := by
  cases MysqlDao.loginUser_ok.ends hr

theorem getUserUid_not_threw (hr : Runs (MysqlDao.getUserUid libs email) tr (.threw w)) :
    False := by
  cases MysqlDao.getUserUid_ok.ends hr

section
variable {trl tru : Trace} {stub : Conn} {n : Int} {status : Status} {respon : GetChatServerRsp}
  {doc : Json.Object} {l : LogLevel} {m : String}

abbrev letInTrace (trl tru : Trace) (stub : Conn) (n : Int) (status : Status)
    (respon : GetChatServerRsp) (doc : Json.Object) (l : LogLevel) (m : String) : Trace :=
  trl ++ [⟨.acquire .status, some stub⟩] ++ [⟨.getChatServer stub n, (status, respon)⟩] ++ tru ++
    [⟨.release .status stub, ()⟩] ++ [⟨.write doc, ()⟩] ++ [⟨.push l m, ()⟩]

theorem letIn_reads (hlogin : MysqlDao.LoginRun pwd user isEmail trl r)
    (huid : MysqlDao.UidRun libs email tru r') :
    replies (letInTrace trl tru stub n status respon doc l m) = [doc] ∧
    chatServers (letInTrace trl tru stub n status respon doc l m) = [(n, status, respon)] := by
  simp only [replies_append, chatServers_append, MysqlDao.loginRun_quiet hlogin,
    MysqlDao.uidRun_quiet huid]
  exact ⟨rfl, rfl⟩

theorem letIn_accepted (hlogin : MysqlDao.LoginRun pwd user isEmail trl (.ret (result, user')))
    (h0 : result ≠ ErrorCodes.mySqlError) (h1 : result ≠ -1) (h2 : result ≠ -2)
    (hok : status.ok = true) (huid : MysqlDao.UidRun libs email tru r) :
    Accepted (letInTrace trl tru stub n status respon doc l m) ↔
      respon.error = ErrorCodes.success := by
  obtain ⟨hexec, res, cell, uid, hsel, hres, rfl, -, -⟩ := loginRun_accepted hlogin h0
  constructor
  · intro ha
    obtain ⟨_, _, _, hmem, -, herr⟩ := ha.assigned
    rw [(letIn_reads hlogin huid).2, List.mem_singleton] at hmem
    cases hmem
    exact herr
  · intro herr
    refine ⟨⟨user.email, pwd, user.uid, isEmail, ?_⟩, ⟨res, cell, ?_, hres, h1, h2⟩,
      n, status, respon, ?_, hok, herr⟩
    · simp only [executed_append, List.mem_append, hexec, true_or]
    · simp only [selected_append, List.mem_append, hsel, true_or]
    · rw [(letIn_reads hlogin huid).2]
      exact .head _

theorem letIn_decides (hlogin : MysqlDao.LoginRun pwd user isEmail trl (.ret r))
    (hok : status.ok = true) (huid : MysqlDao.UidRun libs email tru (.ret uid)) :
    (∀ ev ∈ letInTrace trl tru stub n status respon doc l m, Decides libs ev) ↔
      respon.error = ErrorCodes.success := by
  simp only [List.forall_mem_append]
  constructor
  · intro h
    exact h.1.1.1.1.2 _ (.head _) hok
  · intro herr
    refine ⟨⟨⟨⟨⟨⟨(loginRun_decides hlogin).mpr trivial, ?_⟩, ?_⟩,
      (uidRun_decides huid).mpr trivial⟩, ?_⟩, ?_⟩, ?_⟩ <;> simp [herr]

end

/-- A login fails closed iff its fields convert and every answer is one that decides it. -/
theorem userLogin_failsClosed_iff (hp : (libs.parse body).isSome)
    (hr : Runs (userLogin libs (.ofDao libs) body) tr e) :
    FailsClosed tr e ↔ LoginReadable libs body ∧ ∀ ev ∈ tr, Decides libs ev := by
  cases userLogin_ok.ends hr with
  | badJson hnone => simp [hnone] at hp
  | unreadable hnot => exact iff_of_false not_failsClosed_threw fun h => hnot h.1
  | loginThrew _ hrun => exact (loginUser_not_threw hrun).elim
  | loginFault _ hrun =>
    exact iff_of_false not_failsClosed_undef fun h =>
      (loginRun_decides (MysqlDao.loginUser_ok.ends hrun)).mp h.2
  | rejected form hrun _ hd =>
    have hlogin := MysqlDao.loginUser_ok.ends hrun
    refine iff_of_true (failsClosed_turnedDown ?_ hd) ⟨loginForm_readable form, ?_⟩
    · simp only [replies_append, (MysqlDao.loginRun_quiet hlogin).1]
      rfl
    · simp only [List.forall_mem_append]
      exact ⟨⟨(loginRun_decides hlogin).mpr trivial, by simp⟩, by simp⟩
  | noStub => exact iff_of_false not_failsClosed_undef (by simp)
  | rpcFailed form hrun _ _ _ hok hd =>
    have hlogin := MysqlDao.loginUser_ok.ends hrun
    refine iff_of_true (failsClosed_turnedDown ?_ hd) ⟨loginForm_readable form, ?_⟩
    · simp only [replies_append, (MysqlDao.loginRun_quiet hlogin).1]
      rfl
    · simp only [List.forall_mem_append]
      refine ⟨⟨⟨⟨⟨(loginRun_decides hlogin).mpr trivial, ?_⟩, ?_⟩, ?_⟩, ?_⟩, ?_⟩ <;> simp [hok]
  | idThrew _ _ _ _ _ _ hrun => exact (getUserUid_not_threw hrun).elim
  | idFault _ _ _ _ _ _ hrun =>
    refine iff_of_false not_failsClosed_undef fun h => ?_
    simp only [List.forall_mem_append] at h
    exact (uidRun_decides (MysqlDao.getUserUid_ok.ends hrun)).mp h.2.2
  | loggedIn form hrun h0 h1 h2 hok hrun' hd =>
    have hlogin := MysqlDao.loginUser_ok.ends hrun
    have huid := MysqlDao.getUserUid_ok.ends hrun'
    rw [failsClosed_loggedIn (letIn_reads hlogin huid).1 hd,
      letIn_accepted hlogin h0 h1 h2 hok huid, letIn_decides hlogin hok huid]
    exact ⟨fun h => ⟨loginForm_readable form, h⟩, And.right⟩

-- ---------------------------------------------------------------------------
-- A login by number
-- ---------------------------------------------------------------------------

def loginBody : String := "\x7b\"email\":\"e\",\"uid\":\"7\"\x7d"

def loginLibs : Libs :=
  .ofBodies [(loginBody, .object [("email", .string "e"), ("uid", .string "7")])]

theorem loginBody_form : LoginForm loginLibs loginBody "e" "" 0 ⟨7, "e", ""⟩ where
  src := ⟨_, "", rfl, rfl, rfl, rfl, rfl, fun _ => ⟨"7", rfl, by decide⟩⟩
  byEmail h := absurd rfl h
  email := rfl
  passwd := rfl

def loginTrace (error : Int) (cell : String) (uid : Int) : Trace :=
  [⟨.acquire .mySql, some 0⟩, ⟨.execute 0 (.loginUser "e" "" 7 0), .ok true⟩,
    ⟨.store 0 .selectLoginResult, .ok ⟨true, [⟨"0", false⟩]⟩⟩,
    ⟨.store 0 .selectUserUid, .ok ⟨true, [⟨"7", false⟩]⟩⟩,
    ⟨.push .info "User login result: 0", ()⟩, ⟨.release .mySql 0, ()⟩,
    ⟨.acquire .status, some 0⟩, ⟨.getChatServer 0 7, (⟨true, ""⟩, ⟨error, "h", "p", "t"⟩)⟩,
    ⟨.acquire .mySql, some 0⟩,
    ⟨.store 0 (.selectGetUserUid "e"), .ok ⟨true, [⟨cell, false⟩]⟩⟩,
    ⟨.release .mySql 0, ()⟩, ⟨.release .status 0, ()⟩,
    ⟨.write [("port", .string "p"), ("host", .string "h"), ("token", .string "t"),
      ("uid", .integer uid), ("error", .integer 0)], ()⟩,
    ⟨.push .info "User login successfully: ", ()⟩]

theorem loginTrace_runs (error : Int) (hcell : cell = "7" ∧ uid = 7 ∨ cell = "8" ∧ uid = 8) :
    Runs (userLogin loginLibs (.ofDao loginLibs) loginBody) (loginTrace error cell uid)
      (.ret true) := by
  have hid : toInt32 (toUInt64 (atoi "7")) = 7 := by decide
  rw [loginTrace]
  refine .call _ (.call _ (.call _ (.call _ (.call _ ?_))))
  refine .call _ (.call _ ?_)
  rcases hcell with ⟨rfl, rfl⟩ | ⟨rfl, rfl⟩
  all_goals
    nth_rewrite 1 [← hid]
    exact .call _ (.call _ (.call _ (.call _ (.call _ (.call _ (.call _ .refl))))))

theorem userLogin_failsClosed_accepted : FailsClosed (loginTrace 0 "7" 7) (.ret true) := by
  refine (userLogin_failsClosed_iff rfl (loginTrace_runs 0 (.inl ⟨rfl, rfl⟩))).mpr
    ⟨loginForm_readable loginBody_form, ?_⟩
  simp [loginTrace, StoreQueryResult.first]
  rfl

theorem refused_login_reports_success : ∃ tr e,
    Runs (userLogin loginLibs (.ofDao loginLibs) loginBody) tr e ∧ ¬ FailsClosed tr e := by
  refine ⟨loginTrace 1 "7" 7, .ret true, loginTrace_runs 1 (.inl ⟨rfl, rfl⟩), fun h => ?_⟩
  obtain ⟨uid, status, respon, hmem, -, herr⟩ := (h.success _ (.head _) rfl).assigned
  cases List.mem_singleton.mp hmem
  cases herr

end GateServer.LogicalSystem
