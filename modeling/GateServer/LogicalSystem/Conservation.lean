import GateServer.Interact.Settling
import GateServer.LogicalSystem.Login
import GateServer.MySqlDao.Connections

/-!
# The connections and stubs of requests

A handler's run consists of its own steps and of runs of the data-access layer, and both
use two of the pools. What a request loses is what its parts lose.
-/

namespace GateServer.LogicalSystem

open Interact Gateway MysqlDao

/-- A request to one of the registered routes. -/
structure Post (libs : Libs) where
  path : String
  handler : HttpHandler
  body : String
  registered : (path, handler) ∈ postHandlers libs (.ofDao libs)

namespace Post

def handle (post : Post libs) : Act Bool := post.handler post.body

def userRegister (libs : Libs) (body : String) : Post libs where
  path := "/user_register"
  handler := LogicalSystem.userRegister libs (.ofDao libs)
  body := body
  registered := .tail _ (.head _)

def userLogin (libs : Libs) (body : String) : Post libs where
  path := "/user_login"
  handler := LogicalSystem.userLogin libs (.ofDao libs)
  body := body
  registered := .tail _ (.tail _ (.head _))

end Post

-- ---------------------------------------------------------------------------
-- The data-access layer in a handler's run
-- ---------------------------------------------------------------------------

abbrev MySqlJudged (libs : Libs) (tr : Trace) : Prop := Judged (LetsRelease libs) (moves .mySql) tr

theorem quiet_judged (h : ∀ ev ∈ tr, Op.pool? ev.op ≠ some .mySql ∧ LetsRelease libs ev) :
    MySqlJudged libs tr :=
  .idle (idles_of_pool_ne fun ev hev => (h ev hev).1) fun ev hev => (h ev hev).2

theorem callRun_judged (hr : CallRun noConn call select tr r)
    (hq : ∀ res, Served libs select res) : MySqlJudged libs tr where
  le := by cases hr <;> simp [givenBack, taken, moves]
  iff := callRun_settles hr hq

theorem loginRun_judged (hr : LoginRun pwd user isEmail tr e) : MySqlJudged libs tr where
  le := by cases hr <;> simp [givenBack, taken, moves]
  iff := loginRun_settles hr

theorem existsRun_judged (hr : ExistsRun email uid tr e) : MySqlJudged libs tr where
  le := by cases hr <;> simp [givenBack, taken, moves]
  iff := existsRun_settles hr

theorem iconRun_judged (hr : IconRun uid tr data) : MySqlJudged libs tr where
  le := by cases hr <;> simp [givenBack, taken, moves]
  iff := iconRun_settles hr

theorem uidRun_judged (hr : UidRun libs email tr e) : MySqlJudged libs tr where
  le := by cases hr <;> simp [givenBack, taken, moves]
  iff := uidRun_settles hr

theorem varifyRun_judged (hr : VarifyRun email tr rsp) : MySqlJudged libs tr := by
  cases hr <;> exact quiet_judged (by simp)

theorem regUser_judged (hr : Runs (MysqlDao.regUser name email pwd) tr e) :
    MySqlJudged libs tr := by
  obtain ⟨r, -, h⟩ := regUser_runs hr
  exact callRun_judged h fun _ => trivial

theorem changePasswd_judged
    (hr : Runs (MysqlDao.changePasswdWhenUserForgetPasswd email uid pwd) tr e) :
    MySqlJudged libs tr := by
  obtain ⟨r, -, h⟩ := changePasswd_runs hr
  exact callRun_judged h fun _ => trivial

theorem loginUser_judged (hr : Runs (MysqlDao.loginUser pwd user isEmail) tr e) :
    MySqlJudged libs tr :=
  loginRun_judged (MysqlDao.loginUser_ok.ends hr)

theorem existsUser_judged (hr : Runs (MysqlDao.existsUser email uid) tr e) :
    MySqlJudged libs tr :=
  existsRun_judged (existsUser_ok.ends hr)

theorem getUserIcon_judged (hr : Runs (MysqlDao.getUserIcon uid) tr e) : MySqlJudged libs tr := by
  obtain ⟨data, -, h⟩ := getUserIcon_runs hr
  exact iconRun_judged h

theorem getUserUid_judged (hr : Runs (getUserUid libs email) tr e) : MySqlJudged libs tr :=
  uidRun_judged (getUserUid_ok.ends hr)

theorem idStage_judged (h : IdStage (.ofDao libs) tr) : MySqlJudged libs tr := by
  rcases h with rfl | ⟨email, uid, hrun⟩
  · exact quiet_judged (by simp)
  · exact getUserUid_judged hrun

-- ---------------------------------------------------------------------------
-- The handlers and the MySQL pool
-- ---------------------------------------------------------------------------

theorem userRegister_judged (hr : Runs (userRegister libs (.ofDao libs) body) tr e) :
    MySqlJudged libs tr := by
  cases userRegister_ok.ends hr with
  | regThrew _ _ _ hrun | regFault _ _ _ hrun =>
    exact .append (quiet_judged (by simp)) (regUser_judged hrun)
  | refused _ _ _ hrun | registered _ _ _ hrun | twice _ _ _ hrun =>
    simp only [List.append_assoc]
    exact .append (quiet_judged (by simp)) (.append (regUser_judged hrun) (quiet_judged (by simp)))
  | _ => exact quiet_judged (by simp)

theorem submitForgetPasswd_judged (hr : Runs (submitForgetPasswd libs (.ofDao libs) body) tr e) :
    MySqlJudged libs tr := by
  cases submitForgetPasswd_ok.ends hr with
  | changeThrew _ _ hrun | changeFault _ _ hrun | unnamed _ _ hrun =>
    exact .append (quiet_judged (by simp)) (changePasswd_judged hrun)
  | refused _ _ hrun | changed _ _ hrun =>
    simp only [List.append_assoc]
    exact .append (quiet_judged (by simp))
      (.append (changePasswd_judged hrun) (quiet_judged (by simp)))
  | _ => exact quiet_judged (by simp)

theorem userLogin_judged (hr : Runs (userLogin libs (.ofDao libs) body) tr e) :
    MySqlJudged libs tr := by
  cases userLogin_ok.ends hr with
  | loginThrew _ hrun | loginFault _ hrun => exact loginUser_judged hrun
  | noStub _ hrun => exact .append (loginUser_judged hrun) (quiet_judged (by simp))
  | rejected _ hrun | rpcFailed _ hrun =>
    simp only [List.append_assoc]
    exact .append (loginUser_judged hrun) (quiet_judged (by simp))
  | idThrew _ hrun _ _ _ _ hrun' | idFault _ hrun _ _ _ _ hrun' =>
    rw [List.append_assoc _ [_] [_]]
    exact .append (.append (loginUser_judged hrun) (quiet_judged (by simp)))
      (getUserUid_judged hrun')
  | loggedIn _ hrun _ _ _ _ hrun' =>
    simp only [List.append_assoc]
    exact .append (loginUser_judged hrun) (.append (quiet_judged (by simp))
      (.append (quiet_judged (by simp)) (.append (getUserUid_judged hrun')
        (quiet_judged (by simp)))))
  | _ => exact quiet_judged (by simp)

theorem getVarifyCode_judged (hr : Runs (LogicalSystem.getVarifyCode libs body) tr e) :
    MySqlJudged libs tr := by
  cases getVarifyCode_ok.ends hr with
  | answered _ hrsp =>
    simp only [List.append_assoc]
    exact .append (quiet_judged (by simp))
      (.append (varifyRun_judged hrsp) (quiet_judged (by simp)))
  | _ => exact quiet_judged (by simp)

theorem getVarifyCodeForgetPasswd_judged
    (hr : Runs (getVarifyCodeForgetPasswd libs (.ofDao libs) body) tr e) : MySqlJudged libs tr := by
  cases getVarifyCodeForgetPasswd_ok.ends hr with
  | existsThrew _ hrun | existsFault _ hrun => exact existsUser_judged hrun
  | unknown _ hrun =>
    simp only [List.append_assoc]
    exact .append (existsUser_judged hrun) (quiet_judged (by simp))
  | answered _ hrun hrsp =>
    simp only [List.append_assoc]
    exact .append (existsUser_judged hrun) (.append (quiet_judged (by simp))
      (.append (varifyRun_judged hrsp) (quiet_judged (by simp))))
  | _ => exact quiet_judged (by simp)

theorem userIcon_judged (hr : Runs (LogicalSystem.getUserIcon libs (.ofDao libs) body) tr e) :
    MySqlJudged libs tr := by
  cases LogicalSystem.getUserIcon_ok.ends hr with
  | idThrew _ hrun | idFault _ hrun => exact getUserUid_judged hrun
  | iconThrew _ hid hrun | iconFault _ hid hrun =>
    exact (idStage_judged hid).append (getUserIcon_judged hrun)
  | answered _ hid hrun =>
    exact ((idStage_judged hid).append (getUserIcon_judged hrun)).append (quiet_judged (by simp))
  | _ => exact quiet_judged (by simp)

theorem Post.mySql_judged (post : Post libs) (hr : Runs post.handle tr e) :
    MySqlJudged libs tr := by
  obtain ⟨path, handler, body, hroute⟩ := post
  simp only [postHandlers, List.mem_cons, List.not_mem_nil, or_false, Prod.mk.injEq] at hroute
  rcases hroute with ⟨rfl, rfl⟩ | ⟨rfl, rfl⟩ | ⟨rfl, rfl⟩ | ⟨rfl, rfl⟩ | ⟨rfl, rfl⟩ | ⟨rfl, rfl⟩
  · exact getVarifyCode_judged hr
  · exact userRegister_judged hr
  · exact userLogin_judged hr
  · exact getVarifyCodeForgetPasswd_judged hr
  · exact submitForgetPasswd_judged hr
  · exact userIcon_judged hr

theorem Post.borrows_mySql (post : Post libs) :
    Borrows (LetsRelease libs) (moves .mySql) post.handle :=
  Borrows.of_runs letsRelease_answerable fun _ _ hrun hev => (post.mySql_judged hrun).iff.mpr hev

/-- No MySQL connection is lost by any interleaving of requests as long as the database answers
as the layer below requires, and a request loses one only after another answer. -/
theorem posts_conserve_mySql {g : Gateway Accounts} {jobs : List (Post libs)}
    (hr : Reachable (arena Accounts) (.start Post.handle g jobs) c) :
    (AllFit (fun _ => LetsRelease libs) c → Opened .mySql c.world →
      Conserved (moves .mySql) (idle .mySql g) (idle .mySql c.world) c.threads) ∧
    ∀ t ∈ c.threads, t.Finished →
      (Settles (moves .mySql) t.hist ↔ ∀ ev ∈ t.hist, LetsRelease libs ev) := by
  constructor
  · intro hf ho
    exact (lends (by decide)).conserved Post.borrows_mySql hr hf ho
  · rintro t ht ⟨e, he⟩
    have hrun := hr.steps t ht
    rw [he] at hrun
    exact (t.job.mySql_judged hrun).iff

def loggedInGateway : Gateway Nat :=
  (opened [0]).setPool .mySql ⟨[], false⟩ |>.setPool .mySql ⟨[0], false⟩
    |>.setPool .status ⟨[], false⟩ |>.setPool .mySql ⟨[], false⟩ |>.setPool .mySql ⟨[0], false⟩
    |>.setPool .status ⟨[0], false⟩

theorem loginTrace_reachable : Reachable (arena Nat)
    (.start Post.handle (opened [0]) [.userLogin loginLibs loginBody])
    ⟨loggedInGateway, [⟨.userLogin loginLibs loginBody, loginTrace 0 "7" 7,
      .done (.ret true)⟩]⟩ := by
  refine Reachable.alone (loginTrace_runs 0 (.inl ⟨rfl, rfl⟩)) ?_
  refine .cons (.get MySqlPool.Gets.front) (.cons (.execute 0) (.cons (.quiet trivial) ?_))
  refine .cons (.quiet trivial) (.cons (.quiet trivial) ?_)
  refine .cons (.takeBack MySqlPool.TakesBack.pushed) (.cons (.get GRPCServerPool.Gets.front) ?_)
  refine .cons (.quiet trivial) (.cons (.get MySqlPool.Gets.front) (.cons (.quiet trivial) ?_))
  refine .cons (.takeBack MySqlPool.TakesBack.pushed) ?_
  refine .cons (.takeBack GRPCServerPool.TakesBack.pushed) ?_
  exact .cons (.quiet trivial) (.cons (.quiet trivial) .nil)

theorem posts_conserve_mySql_loggedIn :
    Conserved (moves .mySql) {0} {0} [⟨Post.userLogin loginLibs loginBody, loginTrace 0 "7" 7,
      (.done (.ret true) : Act Bool)⟩] := by
  refine (posts_conserve_mySql loginTrace_reachable).1 ?_ rfl
  intro t ht
  cases List.mem_singleton.mp ht
  simp [loginTrace, Served, StoreQueryResult.first, loginLibs, Libs.ofBodies]

-- ---------------------------------------------------------------------------
-- The handlers and the stubs of the status service
-- ---------------------------------------------------------------------------

/-- The answers after which a login releases its stub: the second lookup of the account ends.
-/
@[simp] def KeepsStub (libs : Libs) (path : String) : Ev → Prop
  | ⟨.store _ (.selectGetUserUid email), res⟩ =>
    path = "/user_login" → ∃ r, res = .ok r ∧ Served libs (.selectGetUserUid email) r
  | _ => True

theorem keepsStub_answerable (op : Op) : ∃ a, KeepsStub libs path ⟨op, a⟩ := by
  cases op with
  | store conn query =>
    cases query with
    | selectGetUserUid => exact ⟨.ok ⟨false, []⟩, fun _ => ⟨_, rfl, fun h => nomatch h⟩⟩
    | _ => exact ⟨.ok ⟨false, []⟩, trivial⟩
  | _ => exact ⟨Op.answer _, trivial⟩

abbrev StubJudged (libs : Libs) (path : String) (tr : Trace) : Prop :=
  Judged (KeepsStub libs path) (moves .status) tr

@[simp] def StubQuiet (libs : Libs) (path : String) (tr : Trace) : Prop :=
  ∀ ev ∈ tr, Op.pool? ev.op ≠ some .status ∧ KeepsStub libs path ev

theorem StubQuiet.judged (h : StubQuiet libs path tr) : StubJudged libs path tr :=
  .idle (idles_of_pool_ne fun ev hev => (h ev hev).1) fun ev hev => (h ev hev).2

theorem StubQuiet.append (h : StubQuiet libs path tr) (h' : StubQuiet libs path tr') :
    StubQuiet libs path (tr ++ tr') :=
  List.forall_mem_append.mpr ⟨h, h'⟩

theorem regUser_stubQuiet (hr : Runs (MysqlDao.regUser name email pwd) tr e) :
    StubQuiet libs path tr := by
  obtain ⟨r, -, h⟩ := regUser_runs hr
  cases h <;> simp

theorem changePasswd_stubQuiet
    (hr : Runs (MysqlDao.changePasswdWhenUserForgetPasswd email uid pwd) tr e) :
    StubQuiet libs path tr := by
  obtain ⟨r, -, h⟩ := changePasswd_runs hr
  cases h <;> simp

theorem loginRun_stubQuiet (hr : LoginRun pwd user isEmail tr e) : StubQuiet libs path tr := by
  cases hr <;> simp

theorem existsRun_stubQuiet (hr : ExistsRun email uid tr e) : StubQuiet libs path tr := by
  cases hr <;> simp

theorem iconRun_stubQuiet (hr : IconRun uid tr data) : StubQuiet libs path tr := by
  cases hr <;> simp

theorem uidRun_stubQuiet (hr : UidRun libs email tr e) (hpath : path ≠ "/user_login") :
    StubQuiet libs path tr := by
  cases hr <;> simp [hpath]

theorem varifyRun_stubQuiet (hr : VarifyRun email tr rsp) : StubQuiet libs path tr := by
  cases hr <;> simp

theorem uidRun_off_status (hr : UidRun libs email tr e) :
    ∀ ev ∈ tr, Op.pool? ev.op ≠ some .status := by
  cases hr <;> simp

theorem uidRun_returns_iff (hr : UidRun libs email tr e) :
    (∃ uid, e = .ret uid) ↔ ∀ ev ∈ tr, KeepsStub libs "/user_login" ev := by
  cases hr with
  | noConn => simp
  | failed hok => simp [Served, hok]
  | noRow hok hrows => simp [Served, hok, hrows]
  | noTruth hok hrows htruth => simp [Served, hok, hrows, htruth]
  | zero hok hrows htruth => simp [Served, hrows, htruth]
  | answered hok hrows htruth => simp [Served, hrows, htruth]
  | selectThrew => simp

theorem stub_leaks {m : Trace} (hpool : ∀ ev ∈ m, Op.pool? ev.op ≠ some .status)
    (hbad : ¬ ∀ ev ∈ m, KeepsStub libs path ev) :
    StubJudged libs path (⟨.acquire .status, some stub⟩ :: m) where
  le := by simp [givenBack, moves, (idles_of_pool_ne hpool).givenBack]
  iff := iff_of_false (leaks hpool) fun h => hbad fun ev hev => h ev (.tail _ hev)

theorem stub_once {m t : Trace} (hm : ∀ ev ∈ m, Op.pool? ev.op ≠ some .status)
    (ht : ∀ ev ∈ t, Op.pool? ev.op ≠ some .status) (hgood : ∀ ev ∈ m ++ t, KeepsStub libs path ev) :
    StubJudged libs path
      (⟨.acquire .status, some stub⟩ :: (m ++ ⟨.release .status stub, ()⟩ :: t)) := by
  have hs : Settles (moves .status)
      (⟨.acquire .status, some stub⟩ :: (m ++ ⟨.release .status stub, ()⟩ :: t)) :=
    settles_once hm ht
  refine ⟨hs.2.le, iff_of_true hs ?_⟩
  simp only [List.forall_mem_append] at hgood
  simp only [List.forall_mem_cons, List.forall_mem_append]
  exact ⟨trivial, hgood.1, trivial, hgood.2⟩

theorem userLogin_stubJudged (hr : Runs (userLogin libs (.ofDao libs) body) tr e) :
    StubJudged libs "/user_login" tr := by
  have hlogin {tr' : Trace} {pwd user isEmail e'}
      (hrun : Runs (MysqlDao.loginUser pwd user isEmail) tr' e') :
      StubQuiet libs "/user_login" tr' :=
    loginRun_stubQuiet (MysqlDao.loginUser_ok.ends hrun)
  cases userLogin_ok.ends hr with
  | badJson => exact StubQuiet.judged (by simp)
  | unreadable => exact StubQuiet.judged (by simp)
  | loginThrew _ hrun | loginFault _ hrun => exact (hlogin hrun).judged
  | rejected _ hrun => exact (((hlogin hrun).append (by simp)).append (by simp)).judged
  | noStub _ hrun =>
    have hnull : StubJudged libs "/user_login" [⟨.acquire .status, none⟩] := by
      have hs : Settles (moves .status) [⟨.acquire .status, none⟩] := settles_null (by simp)
      exact ⟨hs.2.le, iff_of_true hs (by simp)⟩
    exact (hlogin hrun).judged.append hnull
  | rpcFailed _ hrun =>
    simp only [List.append_assoc]
    exact (hlogin hrun).judged.append (stub_once (m := [_]) (t := [_, _]) (by simp) (by simp)
      (by simp))
  | idThrew _ hrun _ _ _ _ hrun' | idFault _ hrun _ _ _ _ hrun' =>
    have huid := getUserUid_ok.ends hrun'
    simp only [List.append_assoc]
    refine (hlogin hrun).judged.append (stub_leaks (m := [_] ++ _) ?_ fun hgood => ?_)
    · simpa using uidRun_off_status huid
    · obtain ⟨uid, h⟩ := (uidRun_returns_iff huid).mpr fun ev hev => hgood ev (by simp [hev])
      cases h
  | loggedIn _ hrun _ _ _ _ hrun' =>
    have huid := getUserUid_ok.ends hrun'
    have hgood := (uidRun_returns_iff huid).mp ⟨_, rfl⟩
    simp only [List.append_assoc]
    refine (hlogin hrun).judged.append (stub_once (m := [_] ++ _) (t := [_, _]) ?_ (by simp) ?_)
    · simpa using uidRun_off_status huid
    · exact List.forall_mem_append.mpr ⟨List.forall_mem_cons.mpr ⟨trivial, hgood⟩, by simp⟩

theorem userRegister_stubQuiet (hr : Runs (userRegister libs (.ofDao libs) body) tr e) :
    StubQuiet libs path tr := by
  cases userRegister_ok.ends hr with
  | regThrew _ _ _ hrun | regFault _ _ _ hrun =>
    exact .append (by simp) (regUser_stubQuiet hrun)
  | refused _ _ _ hrun | registered _ _ _ hrun | twice _ _ _ hrun =>
    simp only [List.append_assoc]
    exact .append (by simp) (.append (regUser_stubQuiet hrun) (by simp))
  | _ => simp

theorem submitForgetPasswd_stubQuiet
    (hr : Runs (submitForgetPasswd libs (.ofDao libs) body) tr e) : StubQuiet libs path tr := by
  cases submitForgetPasswd_ok.ends hr with
  | changeThrew _ _ hrun | changeFault _ _ hrun | unnamed _ _ hrun =>
    exact .append (by simp) (changePasswd_stubQuiet hrun)
  | refused _ _ hrun | changed _ _ hrun =>
    simp only [List.append_assoc]
    exact .append (by simp) (.append (changePasswd_stubQuiet hrun) (by simp))
  | _ => simp

theorem getVarifyCode_stubQuiet (hr : Runs (LogicalSystem.getVarifyCode libs body) tr e) :
    StubQuiet libs path tr := by
  cases getVarifyCode_ok.ends hr with
  | answered _ hrsp =>
    simp only [List.append_assoc]
    exact .append (by simp) (.append (varifyRun_stubQuiet hrsp) (by simp))
  | _ => simp

theorem getVarifyCodeForgetPasswd_stubQuiet
    (hr : Runs (getVarifyCodeForgetPasswd libs (.ofDao libs) body) tr e) :
    StubQuiet libs path tr := by
  have hexists {tr' : Trace} {email uid e'} (hrun : Runs (MysqlDao.existsUser email uid) tr' e') :
      StubQuiet libs path tr' := existsRun_stubQuiet (existsUser_ok.ends hrun)
  cases getVarifyCodeForgetPasswd_ok.ends hr with
  | existsThrew _ hrun | existsFault _ hrun => exact hexists hrun
  | unknown _ hrun =>
    simp only [List.append_assoc]
    exact .append (hexists hrun) (by simp)
  | answered _ hrun hrsp =>
    simp only [List.append_assoc]
    exact .append (hexists hrun) (.append (by simp)
      (.append (varifyRun_stubQuiet hrsp) (by simp)))
  | _ => simp

theorem userIcon_stubQuiet (hr : Runs (LogicalSystem.getUserIcon libs (.ofDao libs) body) tr e)
    (hpath : path ≠ "/user_login") : StubQuiet libs path tr := by
  have huid {tr' : Trace} {email e'} (hrun : Runs (getUserUid libs email) tr' e') :
      StubQuiet libs path tr' := uidRun_stubQuiet (getUserUid_ok.ends hrun) hpath
  have hstage {tr' : Trace} (hid : IdStage (.ofDao libs) tr') : StubQuiet libs path tr' := by
    rcases hid with rfl | ⟨email, uid, hrun⟩
    · simp
    · exact huid hrun
  have hicon {tr' : Trace} {uid e'} (hrun : Runs (MysqlDao.getUserIcon uid) tr' e') :
      StubQuiet libs path tr' := by
    obtain ⟨data, -, h⟩ := getUserIcon_runs hrun
    exact iconRun_stubQuiet h
  cases LogicalSystem.getUserIcon_ok.ends hr with
  | idThrew _ hrun | idFault _ hrun => exact huid hrun
  | iconThrew _ hid hrun | iconFault _ hid hrun => exact .append (hstage hid) (hicon hrun)
  | answered _ hid hrun => exact .append (.append (hstage hid) (hicon hrun)) (by simp)
  | _ => simp

theorem Post.stubJudged (post : Post libs) (hr : Runs post.handle tr e) :
    StubJudged libs post.path tr := by
  obtain ⟨path, handler, body, hroute⟩ := post
  simp only [postHandlers, List.mem_cons, List.not_mem_nil, or_false, Prod.mk.injEq] at hroute
  rcases hroute with ⟨rfl, rfl⟩ | ⟨rfl, rfl⟩ | ⟨rfl, rfl⟩ | ⟨rfl, rfl⟩ | ⟨rfl, rfl⟩ | ⟨rfl, rfl⟩
  · exact (getVarifyCode_stubQuiet hr).judged
  · exact (userRegister_stubQuiet hr).judged
  · exact userLogin_stubJudged hr
  · exact (getVarifyCodeForgetPasswd_stubQuiet hr).judged
  · exact (submitForgetPasswd_stubQuiet hr).judged
  · exact (userIcon_stubQuiet hr (by simp)).judged

theorem Post.borrows_status (post : Post libs) :
    Borrows (KeepsStub libs post.path) (moves .status) post.handle :=
  Borrows.of_runs keepsStub_answerable fun _ _ hrun hev => (post.stubJudged hrun).iff.mpr hev

/-- No stub is lost by any interleaving of requests as long as the second lookup of every login
ends, and a request loses its stub only if it is a login whose second lookup does not. -/
theorem posts_conserve_stubs {g : Gateway Accounts} {jobs : List (Post libs)}
    (hr : Reachable (arena Accounts) (.start Post.handle g jobs) c) :
    (AllFit (fun post => KeepsStub libs post.path) c → Opened .status c.world →
      Conserved (moves .status) (idle .status g) (idle .status c.world) c.threads) ∧
    ∀ t ∈ c.threads, t.Finished →
      (Settles (moves .status) t.hist ↔ ∀ ev ∈ t.hist, KeepsStub libs t.job.path ev) := by
  constructor
  · intro hf ho
    exact (lends (by decide)).conserved Post.borrows_status hr hf ho
  · rintro t ht ⟨e, he⟩
    have hrun := hr.steps t ht
    rw [he] at hrun
    exact (t.job.stubJudged hrun).iff

theorem posts_conserve_stubs_loggedIn :
    Conserved (moves .status) {0} {0} [⟨Post.userLogin loginLibs loginBody, loginTrace 0 "7" 7,
      (.done (.ret true) : Act Bool)⟩] := by
  refine (posts_conserve_stubs loginTrace_reachable).1 ?_ rfl
  intro t ht
  cases List.mem_singleton.mp ht
  simp [loginTrace, Served, loginLibs, Libs.ofBodies]

end GateServer.LogicalSystem
