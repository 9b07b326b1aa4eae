import GateServer.LogicalSystem.Connections
import GateServer.LogicalSystem.Faults

/-!
# One document for each request

Every handler builds its own reply, so the number of documents is a property of each of
its exits.
-/

namespace GateServer.LogicalSystem

open Interact

def OneDocument (libs : Libs) (body : String) (tr : Trace) : Exit Bool → Prop
  | .ret _ => ∃ doc, replies tr = [doc] ∧ (∃ v, doc.member "error" = some v) ∧
    (libs.parse body = none → doc.error = some ErrorCodes.errorJosn)
  | .threw _ => True
  | .undef _ => False

/-- What else one reply requires: `/user_register` replies twice to the result `-2`, and
`/get_user_icon` does not reply to a body that does not parse. -/
def RouteAnswers (libs : Libs) (body : String) (tr : Trace) : String → Prop
  | "/user_register" => ∀ conn res cell, ⟨.store conn .selectResult, .ok res⟩ ∈ tr →
    res.first = some cell → atoi cell.data ≠ -2
  | "/get_user_icon" => (libs.parse body).isSome
  | _ => True

theorem oneDocument_parsed (hsome : (libs.parse body).isSome) (hrep : replies tr = [doc])
    (herr : doc.error = some n) : OneDocument libs body tr (.ret x) := by
  refine ⟨doc, hrep, Json.Object.member_of_error herr, fun hnone => ?_⟩
  rw [hnone] at hsome
  cases hsome

theorem oneDocument_ofError (err : ErrorCodes) (hsome : (libs.parse body).isSome)
    (hrep : replies tr = [.ofError err]) : OneDocument libs body tr (.ret x) :=
  oneDocument_parsed hsome hrep (Json.Object.error_ofError err)

theorem oneDocument_badJson (hrep : replies tr = [.ofError .errorJosn]) :
    OneDocument libs body tr (.ret x) :=
  ⟨_, hrep, Json.Object.member_of_error (Json.Object.error_ofError _),
    fun _ => Json.Object.error_ofError _⟩

theorem not_oneDocument (hrep : replies tr = []) : ¬ OneDocument libs body tr (.ret x) := by
  rintro ⟨doc, h, -⟩
  rw [hrep] at h
  cases h

-- ---------------------------------------------------------------------------
-- The handlers
-- ---------------------------------------------------------------------------

theorem getVarifyCode_oneDocument (hr : Runs (getVarifyCode libs body) tr e) :
    OneDocument libs body tr e ↔ e.Defined := by
  cases getVarifyCode_ok.ends hr with
  | refused => exact iff_of_true (oneDocument_badJson rfl) trivial
  | unreadable => exact Iff.rfl
  | answered hsome hrsp hdoc =>
    refine iff_of_true (oneDocument_parsed hsome ?_ hdoc) trivial
    simp only [replies_append, varifyRun_replies hrsp]
    rfl

theorem regRun_selects
    (hr : MysqlDao.CallRun .rpcFail (.regUser name pwd email) .selectResult tr r)
    (h : ⟨.store conn .selectResult, .ok res⟩ ∈ tr) (hres : res.first = some cell) :
    r = atoi cell.data := by
  cases hr <;> simp_all

theorem regRun_twice
    (hr : MysqlDao.CallRun .rpcFail (.regUser name pwd email) .selectResult tr (-2)) :
    ∃ conn res cell, ⟨.store conn .selectResult, .ok res⟩ ∈ tr ∧ res.first = some cell ∧
      atoi cell.data = -2 := by
  generalize hresult : (-2 : Int) = result at hr
  cases hr with
  | answered hres => exact ⟨_, _, _, .tail _ (.tail _ (.head _)), hres, rfl⟩
  | _ => cases hresult

theorem userRegister_oneDocument_iff (hr : Runs (userRegister libs (.ofDao libs) body) tr e) :
    OneDocument libs body tr e ↔ e.Defined ∧ RouteAnswers libs body tr "/user_register" := by
  cases userRegister_ok.ends hr with
  | badJson => exact iff_of_true (oneDocument_badJson rfl) ⟨trivial, by simp [RouteAnswers]⟩
  | noConn | absent => exact iff_of_false id And.left
  | expired form | mismatch form | exist form =>
    exact iff_of_true (oneDocument_ofError _ form.parsed rfl) ⟨trivial, by simp [RouteAnswers]⟩
  | regThrew _ _ _ hrun | regFault _ _ _ hrun =>
    obtain ⟨r, h, -⟩ := MysqlDao.regUser_runs hrun
    cases h
  | refused form _ _ hrun h0 =>
    obtain ⟨r, h, hcall⟩ := MysqlDao.regUser_runs hrun
    cases h
    refine iff_of_true (oneDocument_ofError .mySqlError form.parsed ?_) ⟨trivial, ?_⟩
    · simp only [replies_append, MysqlDao.callRun_replies hcall]
      rfl
    · intro conn res cell hmem hres
      have hresult := regRun_selects hcall (by simpa using hmem) hres
      omega
  | twice _ _ _ hrun =>
    obtain ⟨r, h, hcall⟩ := MysqlDao.regUser_runs hrun
    cases h
    refine iff_of_false (fun ⟨doc, hrep, _⟩ => ?_) fun h => ?_
    · simp only [replies_append, MysqlDao.callRun_replies hcall] at hrep
      simp [replies] at hrep
    · obtain ⟨conn, res, cell, hmem, hres, hresult⟩ := regRun_twice hcall
      exact h.2 conn res cell (by simp [hmem]) hres hresult
  | registered form _ _ hrun _ _ h2 hdoc =>
    obtain ⟨r, h, hcall⟩ := MysqlDao.regUser_runs hrun
    cases h
    refine iff_of_true (oneDocument_parsed form.parsed ?_ hdoc.1) ⟨trivial, ?_⟩
    · simp only [replies_append, MysqlDao.callRun_replies hcall]
      rfl
    · intro conn res cell hmem hres
      exact regRun_selects hcall (by simpa using hmem) hres ▸ h2
  | _ => exact iff_of_true trivial ⟨trivial, by simp [RouteAnswers]⟩

theorem userLogin_oneDocument_iff (hr : Runs (userLogin libs (.ofDao libs) body) tr e) :
    OneDocument libs body tr e ↔ e.Defined := by
  cases userLogin_ok.ends hr with
  | badJson => exact iff_of_true (oneDocument_badJson rfl) trivial
  | unreadable | loginThrew | idThrew | loginFault | noStub | idFault => exact Iff.rfl
  | rejected form hrun _ hd =>
    have hlogin := MysqlDao.loginUser_ok.ends hrun
    obtain ⟨⟨n, herr, -⟩, -⟩ := hd
    refine iff_of_true (oneDocument_parsed form.parsed ?_ herr) trivial
    simp only [replies_append, (MysqlDao.loginRun_quiet hlogin).1]
    rfl
  | rpcFailed form hrun _ _ _ _ hd =>
    have hlogin := MysqlDao.loginUser_ok.ends hrun
    obtain ⟨⟨n, herr, -⟩, -⟩ := hd
    refine iff_of_true (oneDocument_parsed form.parsed ?_ herr) trivial
    simp only [replies_append, (MysqlDao.loginRun_quiet hlogin).1]
    rfl
  | loggedIn form hrun _ _ _ _ hrun' hd =>
    have hlogin := MysqlDao.loginUser_ok.ends hrun
    have huid := MysqlDao.getUserUid_ok.ends hrun'
    refine iff_of_true (oneDocument_parsed form.parsed ?_ hd.1) trivial
    simp only [replies_append, (MysqlDao.loginRun_quiet hlogin).1, (MysqlDao.uidRun_quiet huid).1]
    rfl

theorem getVarifyCodeForgetPasswd_oneDocument_iff
    (hr : Runs (getVarifyCodeForgetPasswd libs (.ofDao libs) body) tr e) :
    OneDocument libs body tr e ↔ e.Defined := by
  cases getVarifyCodeForgetPasswd_ok.ends hr with
  | badJson => exact iff_of_true (oneDocument_badJson rfl) trivial
  | unreadable | existsThrew | existsFault => exact Iff.rfl
  | unknown hsome hrun =>
    have hexists := MysqlDao.existsUser_ok.ends hrun
    refine iff_of_true (oneDocument_ofError .userNotExist hsome ?_) trivial
    simp only [replies_append, MysqlDao.existsRun_replies hexists]
    rfl
  | answered hsome hrun hrsp hdoc =>
    have hexists := MysqlDao.existsUser_ok.ends hrun
    refine iff_of_true (oneDocument_parsed hsome ?_ hdoc) trivial
    simp only [replies_append, varifyRun_replies hrsp, MysqlDao.existsRun_replies hexists]
    rfl

theorem submitForgetPasswd_oneDocument_iff
    (hr : Runs (submitForgetPasswd libs (.ofDao libs) body) tr e) :
    OneDocument libs body tr e ↔ e.Defined := by
  cases submitForgetPasswd_ok.ends hr with
  | badJson => exact iff_of_true (oneDocument_badJson rfl) trivial
  | expired form | mismatch form =>
    exact iff_of_true (oneDocument_ofError _ form.parsed rfl) trivial
  | @refused _ _ _ _ _ _ _ err _ _ _ form _ hrun =>
    obtain ⟨r, -, hcall⟩ := MysqlDao.changePasswd_runs hrun
    refine iff_of_true (oneDocument_ofError err form.parsed ?_) trivial
    simp only [replies_append, MysqlDao.callRun_replies hcall]
    rfl
  | changed form _ hrun hdoc =>
    obtain ⟨r, -, hcall⟩ := MysqlDao.changePasswd_runs hrun
    refine iff_of_true (oneDocument_parsed form.parsed ?_ hdoc) trivial
    simp only [replies_append, MysqlDao.callRun_replies hcall]
    rfl
  | _ => exact Iff.rfl

theorem getUserIcon_oneDocument_iff (hr : Runs (getUserIcon libs (.ofDao libs) body) tr e) :
    OneDocument libs body tr e ↔ e.Defined ∧ RouteAnswers libs body tr "/get_user_icon" := by
  cases getUserIcon_ok.ends hr with
  | badJson hnone => exact iff_of_false (not_oneDocument rfl) (by simp [RouteAnswers, hnone])
  | unreadable hsome => exact iff_of_true trivial ⟨trivial, hsome⟩
  | idThrew hsome | iconThrew hsome => exact iff_of_true trivial ⟨trivial, hsome⟩
  | _ => exact iff_of_false id And.left

/-- Every route replies to a request with one document iff each answer is one that its handler
provides for. -/
theorem postHandlers_oneDocument_iff (hroute : (path, handler) ∈ postHandlers libs (.ofDao libs))
    (hr : Runs (handler body) tr e) :
    OneDocument libs body tr e ↔ ((∀ ev ∈ tr, Provided libs ev) ∧ RouteReturns libs body tr path) ∧
      RouteAnswers libs body tr path := by
  rw [← postHandlers_defined_iff hroute hr]
  simp only [postHandlers, List.mem_cons, List.not_mem_nil, or_false, Prod.mk.injEq] at hroute
  rcases hroute with ⟨rfl, rfl⟩ | ⟨rfl, rfl⟩ | ⟨rfl, rfl⟩ | ⟨rfl, rfl⟩ | ⟨rfl, rfl⟩ | ⟨rfl, rfl⟩
  · exact (getVarifyCode_oneDocument hr).trans (and_true _).symm.to_iff
  · exact userRegister_oneDocument_iff hr
  · exact (userLogin_oneDocument_iff hr).trans (and_true _).symm.to_iff
  · exact (getVarifyCodeForgetPasswd_oneDocument_iff hr).trans (and_true _).symm.to_iff
  · exact (submitForgetPasswd_oneDocument_iff hr).trans (and_true _).symm.to_iff
  · exact getUserIcon_oneDocument_iff hr

theorem postHandlers_oneDocument_badJson :
    OneDocument codeLibs "" [⟨.write (.ofError .errorJosn), ()⟩] (.ret true) := by
  have hrun : Runs (userRegister codeLibs (.ofDao codeLibs) "")
      [⟨.write (.ofError .errorJosn), ()⟩] (.ret true) := .call _ .refl
  exact (postHandlers_oneDocument_iff (.tail _ (.head _)) hrun).mpr
    ⟨⟨by simp, trivial⟩, by simp [RouteAnswers]⟩

/-- A registered address is answered twice, and an empty body for an icon not at all. -/
theorem postHandlers_lose_count :
    (∃ tr e, Runs (userRegister codeLibs (.ofDao codeLibs) codeBody) tr e ∧
      ¬ OneDocument codeLibs codeBody tr e) ∧
    ∃ tr e, Runs (getUserIcon codeLibs (.ofDao codeLibs) "") tr e ∧
      ¬ OneDocument codeLibs "" tr e := by
  constructor
  · refine ⟨[⟨.acquire .redis, some 0⟩, ⟨.redisGet 0 "code_e", .ok (some "c")⟩,
      ⟨.redisExists 0 "e_usr", .ok false⟩, ⟨.acquire .mySql, some 0⟩,
      ⟨.execute 0 (.regUser "" "" "e"), .ok true⟩,
      ⟨.store 0 .selectResult, .ok ⟨true, [⟨"-2", false⟩]⟩⟩,
      ⟨.push .info "User register result: -2", ()⟩, ⟨.release .mySql 0, ()⟩,
      ⟨.write (.ofError .emailIsRegister), ()⟩, ⟨.release .redis 0, ()⟩,
      ⟨.write [("uid", .integer (-2)), ("varify_code", .string "c"), ("confirm", .null),
        ("passwd", .null), ("user", .null), ("email", .string "e"), ("error", .integer 0)], ()⟩,
      ⟨.release .redis 0, ()⟩], .ret true, ?_, ?_⟩
    · refine .call _ (.call _ (.call _ (.call _ (.call _ (.call _ ?_)))))
      exact .call _ (.call _ (.call _ (.call _ (.call _ (.call _ .refl)))))
    · rintro ⟨doc, hrep, -⟩
      simp [replies] at hrep
  · exact ⟨[], .ret true, .refl, not_oneDocument rfl⟩

end GateServer.LogicalSystem
