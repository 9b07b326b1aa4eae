import GateServer.LogicalSystem.Throws

/-!
# Undefined behaviour of the handlers

A handler has undefined behaviour where it uses a missing connection, stub, stored code or
row, and where it runs off its end.
-/

namespace GateServer.LogicalSystem

open Interact

variable {libs : Libs} {body : String}

/-- `/submit_forget_passwd` has a `return` for these results. -/
def Named (result : Int) : Prop := result = 1 ∨ ∃ err, changeError result = some err

@[simp] def Provided (libs : Libs) : Ev → Prop
  | ⟨.acquire .redis, conn⟩ => ∃ c, conn = some c
  | ⟨.acquire .status, stub⟩ => ∃ s, stub = some s
  | ⟨.redisGet _ _, found⟩ => found ≠ .ok none
  | ⟨.store _ .selectLoginResult, res⟩ => ∀ r, res = .ok r → ∃ cell, r.first = some cell
  | ⟨.store _ (.selectUidByEmail _), res⟩ => ∀ r, res = .ok r → ∃ cell, r.first = some cell
  | ⟨.store _ (.selectGetUserUid _), res⟩ => ∃ r, res = .ok r ∧
    (r.ok = true → ∃ cell rows, r.rows = cell :: rows ∧ (libs.truth cell).isSome)
  | ⟨.execute _ (.changePasswd ..), done⟩ => done = .ok true
  | ⟨.store _ .selectIsok, res⟩ => ∃ r cell, res = .ok r ∧ r.first = some cell ∧
    Named (atoi cell.data)
  | _ => True

/-- `/submit_forget_passwd` has no `return` for the result without a connection to MySQL, and
`/get_user_icon` has none behind its reply. -/
def RouteReturns (libs : Libs) (body : String) (tr : Trace) : String → Prop
  | "/submit_forget_passwd" => ⟨.acquire .mySql, none⟩ ∉ tr
  | "/get_user_icon" => ∀ src, libs.parse body = some src → ¬ FieldsConvert src tr "/get_user_icon"
  | _ => True

-- ---------------------------------------------------------------------------
-- The data-access methods
-- ---------------------------------------------------------------------------

theorem regRun_provided
    (hr : MysqlDao.CallRun .rpcFail (.regUser name pwd email) .selectResult tr r) :
    ∀ ev ∈ tr, Provided libs ev := by
  cases hr <;> simp

theorem changeRun_provided
    (hr : MysqlDao.CallRun .mySqlError (.changePasswd email uid newPasswd) .selectIsok tr r) :
    (∀ ev ∈ tr, Provided libs ev) ∧ ⟨.acquire .mySql, none⟩ ∉ tr ↔ Named r := by
  cases hr with
  | answered hres => simp [hres]
  | noRow hres => simp [hres, Named, changeError]
  | _ => simp [Named, changeError]

theorem loginRun_provided (hr : MysqlDao.LoginRun pwd user isEmail tr e) :
    (∀ ev ∈ tr, Provided libs ev) ↔ e.Defined := by
  cases hr with
  | answered hres => simp [hres]
  | uidThrew hres => simp [hres]
  | noRow hres => simp [hres]
  | _ => simp

theorem existsRun_provided (hr : MysqlDao.ExistsRun email uid tr e) :
    (∀ ev ∈ tr, Provided libs ev) ↔ e.Defined := by
  cases hr with
  | same hres => simp [hres]
  | other hres => simp [hres]
  | noRow hres => simp [hres]
  | _ => simp

theorem uidRun_provided (hr : MysqlDao.UidRun libs email tr e) :
    (∀ ev ∈ tr, Provided libs ev) ↔ e.Defined := by
  cases hr with
  | noConn => simp
  | selectThrew => simp
  | failed hok => simp [hok]
  | noRow hok hrows => simp [hok, hrows]
  | noTruth hok hrows htruth => simp [hok, hrows, htruth]
  | zero hok hrows htruth => simp [hok, hrows, htruth]
  | answered hok hrows htruth => simp [hok, hrows, htruth]

theorem varifyRun_provided (hr : VarifyRun email tr rsp) : ∀ ev ∈ tr, Provided libs ev := by
  cases hr <;> simp

-- ---------------------------------------------------------------------------
-- The handlers
-- ---------------------------------------------------------------------------

theorem getVarifyCode_defined (hr : Runs (getVarifyCode libs body) tr e) :
    e.Defined ∧ ∀ ev ∈ tr, Provided libs ev := by
  cases getVarifyCode_ok.ends hr with
  | refused => simp
  | unreadable => simp
  | answered _ hrsp =>
    simp only [List.forall_mem_append, Exit.defined_ret, true_and]
    refine ⟨⟨⟨?_, varifyRun_provided hrsp⟩, ?_⟩, ?_⟩ <;> simp

theorem userRegister_defined_iff (hr : Runs (userRegister libs (.ofDao libs) body) tr e) :
    e.Defined ↔ ∀ ev ∈ tr, Provided libs ev := by
  cases userRegister_ok.ends hr with
  | noConn | absent => exact iff_of_false id (by simp)
  | regThrew _ _ _ hrun | regFault _ _ _ hrun =>
    obtain ⟨r, h, -⟩ := MysqlDao.regUser_runs hrun
    cases h
  | refused _ _ _ hrun | twice _ _ _ hrun | registered _ _ _ hrun =>
    obtain ⟨r, -, hcall⟩ := MysqlDao.regUser_runs hrun
    have hprovided : (∀ ev ∈ _, Provided libs ev) ↔ True := iff_true_intro (regRun_provided hcall)
    refine iff_of_true trivial ?_
    simp only [List.forall_mem_append, hprovided]
    simp
  | _ => exact iff_of_true trivial (by simp)

theorem userLogin_defined_iff (hr : Runs (userLogin libs (.ofDao libs) body) tr e) :
    e.Defined ↔ ∀ ev ∈ tr, Provided libs ev := by
  cases userLogin_ok.ends hr with
  | badJson => exact iff_of_true trivial (by simp)
  | unreadable => exact iff_of_true trivial (by simp)
  | loginThrew _ hrun | loginFault _ hrun =>
    exact (loginRun_provided (MysqlDao.loginUser_ok.ends hrun)).symm
  | rejected _ hrun | rpcFailed _ hrun =>
    have hlogin : (∀ ev ∈ _, Provided libs ev) ↔ _ :=
      loginRun_provided (MysqlDao.loginUser_ok.ends hrun)
    refine iff_of_true trivial ?_
    simp only [List.forall_mem_append, hlogin]
    simp
  | noStub =>
    refine iff_of_false id fun h => ?_
    obtain ⟨s, hs⟩ := h ⟨.acquire .status, none⟩ (by simp)
    cases hs
  | idThrew _ _ _ _ _ _ hrun => cases MysqlDao.getUserUid_ok.ends hrun
  | idFault _ _ _ _ _ _ hrun =>
    refine iff_of_false id fun h => ?_
    simp only [List.forall_mem_append] at h
    exact (uidRun_provided (MysqlDao.getUserUid_ok.ends hrun)).mp h.2
  | loggedIn _ hrun _ _ _ _ hrun' =>
    have hlogin : (∀ ev ∈ _, Provided libs ev) ↔ _ :=
      loginRun_provided (MysqlDao.loginUser_ok.ends hrun)
    have huid := uidRun_provided (MysqlDao.getUserUid_ok.ends hrun')
    refine iff_of_true trivial ?_
    simp only [List.forall_mem_append, hlogin, huid]
    simp

theorem getVarifyCodeForgetPasswd_defined_iff
    (hr : Runs (getVarifyCodeForgetPasswd libs (.ofDao libs) body) tr e) :
    e.Defined ↔ ∀ ev ∈ tr, Provided libs ev := by
  cases getVarifyCodeForgetPasswd_ok.ends hr with
  | badJson => exact iff_of_true trivial (by simp)
  | unreadable => exact iff_of_true trivial (by simp)
  | existsThrew _ hrun | existsFault _ hrun =>
    exact (existsRun_provided (MysqlDao.existsUser_ok.ends hrun)).symm
  | unknown _ hrun =>
    have hexists : (∀ ev ∈ _, Provided libs ev) ↔ _ :=
      existsRun_provided (MysqlDao.existsUser_ok.ends hrun)
    refine iff_of_true trivial ?_
    simp only [List.forall_mem_append, hexists]
    simp
  | answered _ hrun hrsp =>
    have hexists : (∀ ev ∈ _, Provided libs ev) ↔ _ :=
      existsRun_provided (MysqlDao.existsUser_ok.ends hrun)
    refine iff_of_true trivial ?_
    simp only [List.forall_mem_append, hexists]
    refine ⟨⟨⟨⟨trivial, ?_⟩, varifyRun_provided hrsp⟩, ?_⟩, ?_⟩ <;> simp

theorem submitForgetPasswd_defined_iff
    (hr : Runs (submitForgetPasswd libs (.ofDao libs) body) tr e) :
    e.Defined ↔ (∀ ev ∈ tr, Provided libs ev) ∧ ⟨.acquire .mySql, none⟩ ∉ tr := by
  cases submitForgetPasswd_ok.ends hr with
  | noConn | absent => exact iff_of_false id (by simp)
  | changeThrew _ _ hrun | changeFault _ _ hrun =>
    obtain ⟨r, h, -⟩ := MysqlDao.changePasswd_runs hrun
    cases h
  | refused _ _ hrun herr =>
    obtain ⟨r, h, hcall⟩ := MysqlDao.changePasswd_runs hrun
    cases h
    obtain ⟨hprovided, hconn⟩ : (∀ ev ∈ _, Provided libs ev) ∧ _ :=
      (changeRun_provided hcall).mpr (.inr ⟨_, herr⟩)
    refine iff_of_true trivial ⟨?_, by simp [hconn]⟩
    simp only [List.forall_mem_append, iff_true_intro hprovided]
    simp
  | changed _ _ hrun =>
    obtain ⟨r, h, hcall⟩ := MysqlDao.changePasswd_runs hrun
    cases h
    obtain ⟨hprovided, hconn⟩ : (∀ ev ∈ _, Provided libs ev) ∧ _ :=
      (changeRun_provided hcall).mpr (.inl rfl)
    refine iff_of_true trivial ⟨?_, by simp [hconn]⟩
    simp only [List.forall_mem_append, iff_true_intro hprovided]
    simp
  | unnamed _ _ hrun hnone h1 =>
    obtain ⟨r, h, hcall⟩ := MysqlDao.changePasswd_runs hrun
    cases h
    refine iff_of_false id fun ⟨hprovided, hconn⟩ => ?_
    rw [List.forall_mem_append] at hprovided
    simp only [List.mem_append, not_or] at hconn
    rcases (changeRun_provided hcall).mp ⟨hprovided.2, hconn.2⟩ with hr | ⟨err, herr⟩
    · exact h1 hr
    · cases hnone.symm.trans herr
  | _ => exact iff_of_true trivial (by simp)

/-- The handler of icons returns only for a body that does not parse. -/
theorem getUserIcon_defined_iff (hr : Runs (getUserIcon libs (.ofDao libs) body) tr e) :
    e.Defined ↔ (∀ ev ∈ tr, Provided libs ev) ∧ RouteReturns libs body tr "/get_user_icon" := by
  have hthrew := getUserIcon_threw hr
  have hlegible (h : ¬ e.Threw) : Legible libs body tr "/get_user_icon" :=
    not_not.mp (mt hthrew.mpr h)
  cases getUserIcon_exits.ends hr with
  | badJson hp => exact iff_of_true trivial ⟨by simp, fun src hsrc => nomatch hp.symm.trans hsrc⟩
  | noNumber hp | unreadable form =>
    refine iff_of_true trivial ⟨by simp, fun src hsrc hf => ?_⟩
    exact hthrew.mp trivial (legible_of_some hsrc (by simp [RedisAnswered]) hf)
  | idThrew _ _ _ hrun => cases MysqlDao.getUserUid_ok.ends hrun
  | iconThrew _ hrun =>
    obtain ⟨data, h, -⟩ := MysqlDao.getUserIcon_runs hrun
    cases h
  | idFault form =>
    exact iff_of_false id fun h => h.2 _ form.parse ((hlegible id).fields _ form.parse)
  | iconFault hid | answered hid =>
    obtain ⟨src, hsrc⟩ := Option.isSome_iff_exists.mp hid.stage.1
    exact iff_of_false id fun h => h.2 src hsrc ((hlegible id).fields src hsrc)

theorem postHandlers_defined_iff (hroute : (path, handler) ∈ postHandlers libs (.ofDao libs))
    (hr : Runs (handler body) tr e) :
    e.Defined ↔ (∀ ev ∈ tr, Provided libs ev) ∧ RouteReturns libs body tr path := by
  simp only [postHandlers, List.mem_cons, List.not_mem_nil, or_false, Prod.mk.injEq] at hroute
  rcases hroute with ⟨rfl, rfl⟩ | ⟨rfl, rfl⟩ | ⟨rfl, rfl⟩ | ⟨rfl, rfl⟩ | ⟨rfl, rfl⟩ | ⟨rfl, rfl⟩
  · obtain ⟨h, hprovided⟩ := getVarifyCode_defined hr
    exact iff_of_true h ⟨hprovided, trivial⟩
  · exact (userRegister_defined_iff hr).trans (and_true _).symm.to_iff
  · exact (userLogin_defined_iff hr).trans (and_true _).symm.to_iff
  · exact (getVarifyCodeForgetPasswd_defined_iff hr).trans (and_true _).symm.to_iff
  · exact submitForgetPasswd_defined_iff hr
  · exact getUserIcon_defined_iff hr

-- ---------------------------------------------------------------------------
-- Returning
-- ---------------------------------------------------------------------------

/-- The handler of the path neither throws nor leaves the language. -/
structure Serviceable (libs : Libs) (body : String) (tr : Trace) (path : String) : Prop where
  legible : Legible libs body tr path
  provided : ∀ ev ∈ tr, Provided libs ev
  returns : RouteReturns libs body tr path

theorem postHandlers_returns_iff (hroute : (path, handler) ∈ postHandlers libs (.ofDao libs))
    (hr : Runs (handler body) tr e) :
    e.Defined ∧ ¬ e.Threw ↔ Serviceable libs body tr path := by
  rw [postHandlers_defined_iff hroute hr, postHandlers_threw_iff hroute hr, not_not]
  exact ⟨fun h => ⟨h.2, h.1.1, h.1.2⟩, fun h => ⟨⟨h.provided, h.returns⟩, h.legible⟩⟩

theorem routeReturns_congr (h : ⟨.acquire .mySql, none⟩ ∈ tr ↔ ⟨.acquire .mySql, none⟩ ∈ tr')
    (path : String) : RouteReturns libs body tr path ↔ RouteReturns libs body tr' path := by
  unfold RouteReturns
  split <;> simp only [h, FieldsConvert]

theorem serviceable_pushes (hno : ∀ ev ∈ tr₀, ∃ level message, ev.op = .push level message) :
    Serviceable libs body (tr₀ ++ tr) path ↔ Serviceable libs body tr path := by
  have hprovided : ∀ ev ∈ tr₀, Provided libs ev := by
    rintro ⟨op, a⟩ hev
    obtain ⟨level, message, rfl⟩ := hno _ hev
    trivial
  have hconn : ⟨.acquire .mySql, none⟩ ∉ tr₀ := fun h => by
    obtain ⟨_, _, h⟩ := hno _ h
    cases h
  have hroute : RouteReturns libs body (tr₀ ++ tr) path ↔ RouteReturns libs body tr path :=
    routeReturns_congr (by simp [hconn]) path
  constructor
  · rintro ⟨hlegible, hall, hreturns⟩
    exact ⟨(legible_pushes hno).mp hlegible, (List.forall_mem_append.mp hall).2,
      hroute.mp hreturns⟩
  · rintro ⟨hlegible, hall, hreturns⟩
    exact ⟨(legible_pushes hno).mpr hlegible, List.forall_mem_append.mpr ⟨hprovided, hall⟩,
      hroute.mpr hreturns⟩

theorem serviceable_unregistered (hpath : ∀ route ∈ postHandlers libs mgr, path ≠ route.1) :
    Serviceable libs body [] path where
  legible := ⟨by simp [RedisAnswered], fun _ _ => fieldsConvert_unregistered hpath⟩
  provided := nofun
  returns := by
    unfold RouteReturns
    split
    · exact absurd rfl (hpath _ (.tail _ (.tail _ (.tail _ (.tail _ (.head _))))))
    · exact absurd rfl (hpath _ (.tail _ (.tail _ (.tail _ (.tail _ (.tail _ (.head _)))))))
    · trivial

end GateServer.LogicalSystem
