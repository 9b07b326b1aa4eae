import GateServer.LogicalSystem.Conservation

/-!
# Routes without Redis

Four of the routes do not use Redis, and neither does the data-access layer.
-/

namespace GateServer.LogicalSystem

open Interact Gateway MysqlDao

@[simp] def onRedis : Op → Bool
  | .acquire .redis | .release .redis _ | .redisGet .. | .redisExists .. => true
  | _ => false

def OffRedis (tr : Trace) : Prop := ∀ ev ∈ tr, onRedis ev.op = false

theorem OffRedis.append (h : OffRedis tr) (h' : OffRedis tr') : OffRedis (tr ++ tr') :=
  List.forall_mem_append.mpr ⟨h, h'⟩

theorem callRun_offRedis (hr : CallRun noConn call select tr r) : OffRedis tr := by
  cases hr <;> simp [OffRedis]

theorem loginUser_offRedis (hr : Runs (MysqlDao.loginUser pwd user isEmail) tr e) :
    OffRedis tr := by
  cases MysqlDao.loginUser_ok.ends hr <;> simp [OffRedis]

theorem existsUser_offRedis (hr : Runs (MysqlDao.existsUser email uid) tr e) : OffRedis tr := by
  cases existsUser_ok.ends hr <;> simp [OffRedis]

theorem icon_offRedis (hr : Runs (MysqlDao.getUserIcon uid) tr e) : OffRedis tr := by
  obtain ⟨data, -, h⟩ := getUserIcon_runs hr
  cases h <;> simp [OffRedis]

theorem getUserUid_offRedis (hr : Runs (getUserUid libs email) tr e) : OffRedis tr := by
  cases getUserUid_ok.ends hr <;> simp [OffRedis]

theorem varifyRun_offRedis (hr : VarifyRun email tr rsp) : OffRedis tr := by
  cases hr <;> simp [OffRedis]

theorem getVarifyCode_offRedis (hr : Runs (LogicalSystem.getVarifyCode libs body) tr e) :
    OffRedis tr := by
  cases getVarifyCode_ok.ends hr with
  | answered _ hrsp =>
    simp only [List.append_assoc]
    exact .append (by simp [OffRedis]) (.append (varifyRun_offRedis hrsp) (by simp [OffRedis]))
  | _ => simp [OffRedis]

theorem getVarifyCodeForgetPasswd_offRedis
    (hr : Runs (getVarifyCodeForgetPasswd libs (.ofDao libs) body) tr e) : OffRedis tr := by
  cases getVarifyCodeForgetPasswd_ok.ends hr with
  | existsThrew _ hrun | existsFault _ hrun => exact existsUser_offRedis hrun
  | unknown _ hrun =>
    simp only [List.append_assoc]
    exact .append (existsUser_offRedis hrun) (by simp [OffRedis])
  | answered _ hrun hrsp =>
    simp only [List.append_assoc]
    exact .append (existsUser_offRedis hrun) (.append (by simp [OffRedis])
      (.append (varifyRun_offRedis hrsp) (by simp [OffRedis])))
  | _ => simp [OffRedis]

theorem userLogin_offRedis (hr : Runs (userLogin libs (.ofDao libs) body) tr e) :
    OffRedis tr := by
  cases userLogin_ok.ends hr with
  | loginThrew _ hrun | loginFault _ hrun => exact loginUser_offRedis hrun
  | noStub _ hrun => exact .append (loginUser_offRedis hrun) (by simp [OffRedis])
  | rejected _ hrun | rpcFailed _ hrun =>
    simp only [List.append_assoc]
    exact .append (loginUser_offRedis hrun) (by simp [OffRedis])
  | idThrew _ hrun _ _ _ _ hrun' | idFault _ hrun _ _ _ _ hrun' =>
    rw [List.append_assoc _ [_] [_]]
    exact .append (.append (loginUser_offRedis hrun) (by simp [OffRedis]))
      (getUserUid_offRedis hrun')
  | loggedIn _ hrun _ _ _ _ hrun' =>
    simp only [List.append_assoc]
    exact .append (loginUser_offRedis hrun) (.append (by simp [OffRedis])
      (.append (by simp [OffRedis]) (.append (getUserUid_offRedis hrun') (by simp [OffRedis]))))
  | _ => simp [OffRedis]

theorem userIcon_offRedis (hr : Runs (LogicalSystem.getUserIcon libs (.ofDao libs) body) tr e) :
    OffRedis tr := by
  have hstage {tr' : Trace} (hid : IdStage (.ofDao libs) tr') : OffRedis tr' := by
    rcases hid with rfl | ⟨email, uid, hrun⟩
    · simp [OffRedis]
    · exact getUserUid_offRedis hrun
  cases LogicalSystem.getUserIcon_ok.ends hr with
  | idThrew _ hrun | idFault _ hrun => exact getUserUid_offRedis hrun
  | iconThrew _ hid hrun | iconFault _ hid hrun => exact .append (hstage hid) (icon_offRedis hrun)
  | answered _ hid hrun =>
    exact .append (.append (hstage hid) (icon_offRedis hrun)) (by simp [OffRedis])
  | _ => simp [OffRedis]

/-- The routes that compare a code with the one in Redis. -/
def codePaths : List String := ["/user_register", "/submit_forget_passwd"]

theorem Post.offRedis (post : Post libs) (hpath : post.path ∉ codePaths)
    (hr : Runs post.handle tr e) : OffRedis tr := by
  obtain ⟨path, handler, body, hroute⟩ := post
  simp only [postHandlers, List.mem_cons, List.not_mem_nil, or_false, Prod.mk.injEq] at hroute
  rcases hroute with ⟨rfl, rfl⟩ | ⟨rfl, rfl⟩ | ⟨rfl, rfl⟩ | ⟨rfl, rfl⟩ | ⟨rfl, rfl⟩ | ⟨rfl, rfl⟩
  · exact getVarifyCode_offRedis hr
  · simp [codePaths] at hpath
  · exact userLogin_offRedis hr
  · exact getVarifyCodeForgetPasswd_offRedis hr
  · simp [codePaths] at hpath
  · exact userIcon_offRedis hr

theorem Post.of_codePaths (post : Post libs) (hpath : post.path ∈ codePaths) :
    post.handle = LogicalSystem.userRegister libs (.ofDao libs) post.body ∨
      post.handle = submitForgetPasswd libs (.ofDao libs) post.body := by
  obtain ⟨path, handler, body, hroute⟩ := post
  simp only [postHandlers, List.mem_cons, List.not_mem_nil, or_false, Prod.mk.injEq] at hroute
  rcases hroute with ⟨rfl, rfl⟩ | ⟨rfl, rfl⟩ | ⟨rfl, rfl⟩ | ⟨rfl, rfl⟩ | ⟨rfl, rfl⟩ | ⟨rfl, rfl⟩
  · simp [codePaths] at hpath
  · exact .inl rfl
  · simp [codePaths] at hpath
  · simp [codePaths] at hpath
  · exact .inr rfl
  · simp [codePaths] at hpath

end GateServer.LogicalSystem
