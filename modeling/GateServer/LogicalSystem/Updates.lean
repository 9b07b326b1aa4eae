import GateServer.LogicalSystem.Connections
import GateServer.LogicalSystem.Conservation

/-!
# Updates by a request

The database is changed by the procedures that are called. A request calls at most one,
with the values of its own body, and a change of password is reported iff it was made.
-/

namespace GateServer.LogicalSystem

open Interact Gateway MysqlDao

@[simp] def call? : Ev → Option Query
  | ⟨.execute _ query, _⟩ => some query
  | _ => none

def calls (tr : Trace) : List Query := tr.filterMap call?

@[simp] theorem calls_nil : calls [] = [] := rfl

@[simp] theorem calls_append (tr tr' : Trace) : calls (tr ++ tr') = calls tr ++ calls tr' :=
  List.filterMap_append

@[simp] theorem calls_cons (ev : Ev) (tr : Trace) :
    calls (ev :: tr) = (call? ev).toList ++ calls tr := filterMap_cons_toList ..

/-- The procedure call that a request leads to. -/
inductive Asks (libs : Libs) (body : String) : (path : String) → Query → Prop
  | register : RegisterForm libs body src email name pwd →
      Asks libs body "/user_register" (.regUser name pwd email)
  | login : LoginForm libs body email pwd isEmail user →
      Asks libs body "/user_login" (.loginUser email pwd user.uid isEmail)
  | newPasswd : SubmitForm libs body src email uid newPasswd given →
      Asks libs body "/submit_forget_passwd" (.changePasswd email uid newPasswd)

def CallsOnce (libs : Libs) (body path : String) (tr : Trace) : Prop :=
  calls tr = [] ∨ ∃ query, calls tr = [query] ∧ Asks libs body path query

theorem CallsOnce.congr (h : CallsOnce libs body path tr) (hcalls : calls tr' = calls tr) :
    CallsOnce libs body path tr' := by
  rwa [CallsOnce, hcalls]

theorem CallsOnce.left (h : CallsOnce libs body path (tr ++ tr')) :
    CallsOnce libs body path tr := by
  rcases h with h | ⟨query, h, hasks⟩ <;> rw [calls_append] at h
  · exact .inl (List.append_eq_nil_iff.mp h).1
  · rcases List.append_eq_singleton_iff.mp h with ⟨hnil, -⟩ | ⟨hone, -⟩
    · exact .inl hnil
    · exact .inr ⟨query, hone, hasks⟩

-- ---------------------------------------------------------------------------
-- The data-access layer
-- ---------------------------------------------------------------------------

theorem callRun_calls (hr : CallRun noConn call select tr r) :
    calls tr = [] ∨ calls tr = [call] := by
  cases hr <;> simp

theorem regUser_calls (hr : Runs (MysqlDao.regUser name email pwd) tr e) :
    calls tr = [] ∨ calls tr = [.regUser name pwd email] := by
  obtain ⟨r, -, h⟩ := regUser_runs hr
  exact callRun_calls h

theorem changePasswd_calls
    (hr : Runs (MysqlDao.changePasswdWhenUserForgetPasswd email uid newPasswd) tr e) :
    calls tr = [] ∨ calls tr = [.changePasswd email uid newPasswd] := by
  obtain ⟨r, -, h⟩ := changePasswd_runs hr
  exact callRun_calls h

theorem loginUser_calls (hr : Runs (MysqlDao.loginUser pwd user isEmail) tr e) :
    calls tr = [] ∨ calls tr = [.loginUser user.email pwd user.uid isEmail] := by
  cases MysqlDao.loginUser_ok.ends hr <;> simp

theorem existsUser_calls (hr : Runs (MysqlDao.existsUser email uid) tr e) : calls tr = [] := by
  cases existsUser_ok.ends hr <;> simp

theorem icon_calls (hr : Runs (MysqlDao.getUserIcon uid) tr e) : calls tr = [] := by
  obtain ⟨data, -, h⟩ := getUserIcon_runs hr
  cases h <;> simp

theorem getUserUid_calls (hr : Runs (getUserUid libs email) tr e) : calls tr = [] := by
  cases getUserUid_ok.ends hr <;> simp

theorem varifyRun_calls (hr : VarifyRun email tr rsp) : calls tr = [] := by
  cases hr <;> simp

-- ---------------------------------------------------------------------------
-- The routes
-- ---------------------------------------------------------------------------

theorem userRegister_calls (hr : Runs (userRegister libs (.ofDao libs) body) tr e) :
    CallsOnce libs body "/user_register" tr := by
  cases userRegister_ok.ends hr with
  | regThrew form _ _ hrun | regFault form _ _ hrun | refused form _ _ hrun
  | twice form _ _ hrun | registered form _ _ hrun =>
    rcases regUser_calls hrun with h | h
    · exact .inl (by simp [h])
    · exact .inr ⟨_, by simp [h], .register form⟩
  | _ => exact .inl (by simp)

theorem submitForgetPasswd_calls (hr : Runs (submitForgetPasswd libs (.ofDao libs) body) tr e) :
    CallsOnce libs body "/submit_forget_passwd" tr := by
  cases submitForgetPasswd_ok.ends hr with
  | changeThrew form _ hrun | changeFault form _ hrun | refused form _ hrun
  | changed form _ hrun | unnamed form _ hrun =>
    rcases changePasswd_calls hrun with h | h
    · exact .inl (by simp [h])
    · exact .inr ⟨_, by simp [h], .newPasswd form⟩
  | _ => exact .inl (by simp)

theorem userLogin_calls (hr : Runs (userLogin libs (.ofDao libs) body) tr e) :
    CallsOnce libs body "/user_login" tr := by
  have honce {tr' : Trace} {email pwd isEmail user e'}
      (form : LoginForm libs body email pwd isEmail user)
      (hrun : Runs (MysqlDao.loginUser pwd user isEmail) tr' e') :
      CallsOnce libs body "/user_login" tr' := by
    rcases loginUser_calls hrun with h | h
    · exact .inl h
    · exact .inr ⟨_, h, form.email ▸ .login form⟩
  cases userLogin_ok.ends hr with
  | loginThrew form hrun | loginFault form hrun => exact honce form hrun
  | rejected form hrun | noStub form hrun | rpcFailed form hrun =>
    exact (honce form hrun).congr (by simp)
  | idThrew form hrun _ _ _ _ hrun' | idFault form hrun _ _ _ _ hrun'
  | loggedIn form hrun _ _ _ _ hrun' =>
    exact (honce form hrun).congr (by simp [getUserUid_calls hrun'])
  | _ => exact .inl (by simp)

theorem getVarifyCode_calls (hr : Runs (LogicalSystem.getVarifyCode libs body) tr e) :
    calls tr = [] := by
  cases getVarifyCode_ok.ends hr with
  | answered _ hrsp => simp [varifyRun_calls hrsp]
  | _ => simp

theorem getVarifyCodeForgetPasswd_calls
    (hr : Runs (getVarifyCodeForgetPasswd libs (.ofDao libs) body) tr e) : calls tr = [] := by
  cases getVarifyCodeForgetPasswd_ok.ends hr with
  | existsThrew _ hrun | existsFault _ hrun => exact existsUser_calls hrun
  | unknown _ hrun => simp [existsUser_calls hrun]
  | answered _ hrun hrsp => simp [existsUser_calls hrun, varifyRun_calls hrsp]
  | _ => simp

theorem userIcon_calls (hr : Runs (LogicalSystem.getUserIcon libs (.ofDao libs) body) tr e) :
    calls tr = [] := by
  have hstage {tr' : Trace} (hid : IdStage (.ofDao libs) tr') : calls tr' = [] := by
    rcases hid with rfl | ⟨email, uid, hrun⟩
    · rfl
    · exact getUserUid_calls hrun
  cases LogicalSystem.getUserIcon_ok.ends hr with
  | idThrew _ hrun | idFault _ hrun => exact getUserUid_calls hrun
  | iconThrew _ hid hrun | iconFault _ hid hrun | answered _ hid hrun =>
    simp [hstage hid, icon_calls hrun]
  | _ => simp

theorem Post.callsOnce (post : Post libs) (hr : Runs post.handle tr e) :
    CallsOnce libs post.body post.path tr := by
  obtain ⟨path, handler, body, hroute⟩ := post
  simp only [postHandlers, List.mem_cons, List.not_mem_nil, or_false, Prod.mk.injEq] at hroute
  rcases hroute with ⟨rfl, rfl⟩ | ⟨rfl, rfl⟩ | ⟨rfl, rfl⟩ | ⟨rfl, rfl⟩ | ⟨rfl, rfl⟩ | ⟨rfl, rfl⟩
  · exact .inl (getVarifyCode_calls hr)
  · exact userRegister_calls hr
  · exact userLogin_calls hr
  · exact .inl (getVarifyCodeForgetPasswd_calls hr)
  · exact submitForgetPasswd_calls hr
  · exact .inl (userIcon_calls hr)

/-- No request calls a procedure twice, or another one than its own, in any interleaving. -/
theorem posts_call_once {g : Gateway Accounts} {jobs : List (Post libs)}
    (hr : Reachable (arena Accounts) (.start Post.handle g jobs) c) :
    ∀ t ∈ c.threads, CallsOnce libs t.job.body t.job.path t.hist := by
  intro t ht
  obtain ⟨tr, e, hrest, -⟩ := exists_runs (P := .any) (fun op => ⟨op.answer, trivial⟩) t.rest
  exact (t.job.callsOnce ((hr.steps t ht).trans hrest)).left

theorem posts_call_once_loggedIn :
    CallsOnce loginLibs loginBody "/user_login" (loginTrace 0 "7" 7) :=
  posts_call_once loginTrace_reachable _ (.head _)

-- ---------------------------------------------------------------------------
-- A change of password
-- ---------------------------------------------------------------------------

def Changed (tr : Trace) : Prop :=
  (∃ email uid newPasswd, (.changePasswd email uid newPasswd, true) ∈ executed tr) ∧
  ∃ res cell, (.selectIsok, res) ∈ selected tr ∧ res.first = some cell ∧ atoi cell.data = 1

theorem changeRun_changed
    (hr : CallRun .mySqlError (.changePasswd email uid newPasswd) .selectIsok tr r) :
    Changed tr ↔ r = 1 := by
  cases hr with
  | answered hres => simp [Changed, executed, selected, hres]
  | noRow hres => simp [Changed, executed, selected, hres]
  | _ => simp [Changed, executed, selected]

theorem changed_around (hX : executed X = [] ∧ selected X = [])
    (hY : executed Y = [] ∧ selected Y = []) : Changed (X ++ tr ++ Y) ↔ Changed tr := by
  simp only [Changed, executed_append, selected_append, hX, hY, List.nil_append, List.append_nil]

theorem changeError_fails (h : changeError result = some err) : err ≠ .success ∧ result ≠ 1 := by
  unfold changeError at h
  split at h <;> cases h <;> decide

/-- An answer that is an error means no change. -/
theorem unchanged_ofError {c : ErrorCodes} (hrep : replies tr = [.ofError c]) (hc : c ≠ .success)
    (hunchanged : ¬ Changed tr) : (∃ doc ∈ replies tr, doc.Succeeds) ↔ Changed tr := by
  refine iff_of_false ?_ hunchanged
  simpa [hrep] using (Json.Object.fails_ofError hc).not_succeeds

/-- Success is reported iff the password was changed. -/
theorem submitForgetPasswd_reports_iff
    (hr : Runs (submitForgetPasswd libs (.ofDao libs) body) tr e) :
    (∃ doc ∈ replies tr, doc.Succeeds) ↔ Changed tr := by
  cases submitForgetPasswd_ok.ends hr with
  | badJson | expired | mismatch =>
    exact unchanged_ofError rfl (by decide) (by simp [Changed, executed])
  | changeThrew _ _ hrun | changeFault _ _ hrun =>
    obtain ⟨r, h, -⟩ := changePasswd_runs hrun
    cases h
  | @refused _ _ _ _ _ _ _ err _ _ _ form _ hrun herr =>
    obtain ⟨r, h, hcall⟩ := changePasswd_runs hrun
    cases h
    obtain ⟨hfails, hone⟩ := changeError_fails herr
    refine unchanged_ofError (c := err) ?_ hfails ?_
    · simp only [replies_append, callRun_replies hcall]
      rfl
    · rwa [List.append_assoc, List.append_assoc, changed_around ⟨rfl, rfl⟩ ⟨rfl, rfl⟩,
        changeRun_changed hcall]
  | changed form _ hrun hdoc =>
    obtain ⟨r, h, hcall⟩ := changePasswd_runs hrun
    cases h
    refine iff_of_true ⟨_, ?_, hdoc⟩ ?_
    · rw [replies_append]
      exact List.mem_append_right _ (.head _)
    · rw [List.append_assoc, List.append_assoc, changed_around ⟨rfl, rfl⟩ ⟨rfl, rfl⟩,
        changeRun_changed hcall]
  | unnamed form _ hrun hnone hone =>
    obtain ⟨r, h, hcall⟩ := changePasswd_runs hrun
    cases h
    refine iff_of_false ?_ ?_
    · simp only [replies_append, callRun_replies hcall]
      simp [replies]
    · rwa [← List.append_nil (_ ++ _), changed_around ⟨rfl, rfl⟩ ⟨rfl, rfl⟩,
        changeRun_changed hcall]
  | _ => simp [replies, Changed, executed]

def changedTrace : Trace :=
  [⟨.acquire .redis, some 0⟩, ⟨.redisGet 0 "code_e", .ok (some "c")⟩, ⟨.acquire .mySql, some 0⟩,
    ⟨.execute 0 (.changePasswd "e" "" ""), .ok true⟩,
    ⟨.store 0 .selectIsok, .ok ⟨true, [⟨"1", false⟩]⟩⟩,
    ⟨.push .info "Password change result for user: e is 1", ()⟩, ⟨.release .mySql 0, ()⟩,
    ⟨.push .info "Password changed successfully for user: e", ()⟩, ⟨.release .redis 0, ()⟩,
    ⟨.write (((Json.Object.ofError .success).set "email" (.string "e")).set "uid" .null), ()⟩]

theorem submitForgetPasswd_reports_changed : ∃ doc ∈ replies changedTrace, doc.Succeeds := by
  have hrun : Runs (submitForgetPasswd codeLibs (.ofDao codeLibs) codeBody) changedTrace
      (.ret true) := by
    refine .call _ (.call _ (.call _ (.call _ (.call _ (.call _ ?_)))))
    exact .call _ (.call _ (.call _ (.call _ .refl)))
  refine (submitForgetPasswd_reports_iff hrun).mpr ⟨⟨"e", "", "", ?_⟩, _, ⟨"1", false⟩, .head _, ?_⟩
  · simp [changedTrace, executed]
  · exact ⟨rfl, by decide⟩

end GateServer.LogicalSystem
