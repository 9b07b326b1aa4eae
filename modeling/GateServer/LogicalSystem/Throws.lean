import GateServer.LogicalSystem.Exits
import GateServer.MySqlDao.Exits

/-!
# Exceptions of the handlers

A handler throws where a member of the request cannot be read as required, and where Redis
throws. The data-access methods catch all exceptions of their own.
-/

namespace GateServer.LogicalSystem

open Interact

variable {libs : Libs} {body : String}

def RedisAnswered (tr : Trace) : Prop :=
  ∀ conn key w, ⟨.redisGet conn key, .error w⟩ ∉ tr ∧ ⟨.redisExists conn key, .error w⟩ ∉ tr

theorem redisAnswered_append :
    RedisAnswered (tr ++ tr') ↔ RedisAnswered tr ∧ RedisAnswered tr' := by
  simp only [RedisAnswered, List.mem_append, not_or]
  exact ⟨fun h => ⟨fun c k w => ⟨(h c k w).1.1, (h c k w).2.1⟩,
    fun c k w => ⟨(h c k w).1.2, (h c k w).2.2⟩⟩,
    fun ⟨h, h'⟩ c k w => ⟨⟨(h c k w).1, (h' c k w).1⟩, (h c k w).2, (h' c k w).2⟩⟩

def IsText (src : Json.Value) (key : String) : Prop := ∃ s, src.text key = .ok s

def CodeFound (tr : Trace) : Prop :=
  ∃ conn key code, ⟨.redisGet conn key, .ok (some code)⟩ ∈ tr ∧ code ≠ ""

/-- The members that a handler reads convert. `/user_register` reads the given code only after
it has found one, and two handlers choose the member that names the account. -/
def FieldsConvert (src : Json.Value) (tr : Trace) : String → Prop
  | "/get_varify_code" =>
    src.isMember "email" = .ok false ∨ src.isMember "email" = .ok true ∧ IsText src "email"
  | "/user_register" =>
    (∀ key ∈ ["email", "user", "passwd", "confirm"], IsText src key) ∧
      (CodeFound tr → IsText src "varify_code")
  | "/user_login" =>
    (∀ key ∈ ["email", "user", "passwd"], IsText src key) ∧
      ∃ isEmail, src.get "is_email" >>= Json.Value.asInt = .ok isEmail ∧
        (isEmail = 0 → IsText src "uid")
  | "/get_varify_code_forget_passwd" => ∀ key ∈ ["email", "uid"], IsText src key
  | "/submit_forget_passwd" =>
    ∀ key ∈ ["email", "uid", "new_passwd", "varify_code"], IsText src key
  | "/get_user_icon" =>
    ∃ isEmail, src.get "is_email" >>= Json.Value.asInt = .ok isEmail ∧
      IsText src (if isEmail ≠ 0 then "email" else "uid")
  | _ => True

structure Legible (libs : Libs) (body : String) (tr : Trace) (path : String) : Prop where
  redis : RedisAnswered tr
  fields : ∀ src, libs.parse body = some src → FieldsConvert src tr path

theorem legible_of_none (hp : libs.parse body = none) (hr : RedisAnswered tr) :
    Legible libs body tr path :=
  ⟨hr, fun _ hsrc => nomatch hp.symm.trans hsrc⟩

theorem legible_of_some (hp : libs.parse body = some src) (hr : RedisAnswered tr)
    (hf : FieldsConvert src tr path) : Legible libs body tr path :=
  ⟨hr, fun _ hsrc => Option.some.inj (hp.symm.trans hsrc) ▸ hf⟩

theorem not_legible (hp : libs.parse body = some src) (hf : ¬ FieldsConvert src tr path) :
    ¬ Legible libs body tr path :=
  fun h => hf (h.fields src hp)

theorem fieldsConvert_congr (hc : CodeFound tr ↔ CodeFound tr') (src : Json.Value)
    (path : String) : FieldsConvert src tr path ↔ FieldsConvert src tr' path := by
  unfold FieldsConvert
  split <;> simp only [hc]

theorem legible_pushes (hno : ∀ ev ∈ tr₀, ∃ level message, ev.op = .push level message) :
    Legible libs body (tr₀ ++ tr) path ↔ Legible libs body tr path := by
  have hget (conn key found) : (⟨.redisGet conn key, found⟩ : Ev) ∉ tr₀ := fun h => by
    obtain ⟨_, _, h⟩ := hno _ h
    cases h
  have hexists (conn key found) : (⟨.redisExists conn key, found⟩ : Ev) ∉ tr₀ := fun h => by
    obtain ⟨_, _, h⟩ := hno _ h
    cases h
  have hredis : RedisAnswered (tr₀ ++ tr) ↔ RedisAnswered tr := by
    simp [RedisAnswered, hget, hexists]
  have hcode : CodeFound (tr₀ ++ tr) ↔ CodeFound tr := by simp [CodeFound, hget]
  have hfields (src) := fieldsConvert_congr hcode src path
  exact ⟨fun h => ⟨hredis.mp h.redis, fun src hp => (hfields src).mp (h.fields src hp)⟩,
    fun h => ⟨hredis.mpr h.redis, fun src hp => (hfields src).mpr (h.fields src hp)⟩⟩

theorem not_isText {src : Json.Value} (h : src.text key = .error w) : ¬ IsText src key := by
  rintro ⟨s, hs⟩
  cases h.symm.trans hs

-- ---------------------------------------------------------------------------
-- The data-access methods
-- ---------------------------------------------------------------------------

theorem callRun_redis (hr : MysqlDao.CallRun code call select tr r) :
    RedisAnswered tr := by
  cases hr <;> simp [RedisAnswered]

theorem loginRun_redis (hr : MysqlDao.LoginRun pwd user isEmail tr e) :
    ¬ e.Threw ∧ RedisAnswered tr := by
  cases hr <;> simp [RedisAnswered]

theorem existsRun_redis (hr : MysqlDao.ExistsRun email uid tr e) :
    ¬ e.Threw ∧ RedisAnswered tr := by
  cases hr <;> simp [RedisAnswered]

theorem iconRun_redis (hr : MysqlDao.IconRun uid tr data) : RedisAnswered tr := by
  cases hr <;> simp [RedisAnswered]

theorem uidRun_redis (hr : MysqlDao.UidRun libs email tr e) :
    ¬ e.Threw ∧ RedisAnswered tr := by
  cases hr <;> simp [RedisAnswered]

theorem varifyRun_redis (hr : VarifyRun email tr rsp) : RedisAnswered tr := by
  cases hr <;> simp [RedisAnswered]

-- ---------------------------------------------------------------------------
-- The handlers
-- ---------------------------------------------------------------------------

theorem legible_iff (hthrew : ¬ e.Threw) (h : Legible libs body tr path) :
    (e : Exit Bool).Threw ↔ ¬ Legible libs body tr path :=
  iff_of_false hthrew (not_not.mpr h)

theorem getVarifyCode_threw (hr : Runs (getVarifyCode libs body) tr e) :
    e.Threw ↔ ¬ Legible libs body tr "/get_varify_code" := by
  cases getVarifyCode_exits.ends hr with
  | badJson hp => exact legible_iff id (legible_of_none hp (by simp [RedisAnswered]))
  | noObject hp hm =>
    refine iff_of_true trivial (not_legible hp ?_)
    rintro (h | ⟨h, -⟩) <;> cases hm.symm.trans h
  | missing hp hm => exact legible_iff id (legible_of_some hp (by simp [RedisAnswered]) (.inl hm))
  | unreadable hp hm he =>
    refine iff_of_true trivial (not_legible hp ?_)
    rintro (h | ⟨-, h⟩)
    · cases hm.symm.trans h
    · exact not_isText he h
  | answered hp hm he hrsp =>
    refine legible_iff id (legible_of_some hp ?_ (.inr ⟨hm, _, he⟩))
    simp only [redisAnswered_append, varifyRun_redis hrsp]
    simp [RedisAnswered]

theorem registerForm_texts (form : RegisterForm libs body src email name pwd) :
    ∀ key ∈ ["email", "user", "passwd", "confirm"], IsText src key := by
  simp only [List.forall_mem_cons, List.not_mem_nil, IsEmpty.forall_iff, implies_true, and_true]
  exact ⟨⟨_, form.email⟩, ⟨_, form.user⟩, ⟨_, form.passwd⟩, form.confirm⟩

theorem registerForm_legible (form : RegisterForm libs body src email name pwd)
    (hr : RedisAnswered tr) (hv : CodeFound tr → IsText src "varify_code") :
    Legible libs body tr "/user_register" :=
  legible_of_some form.parse hr ⟨registerForm_texts form, hv⟩

theorem userRegister_threw (hr : Runs (userRegister libs (.ofDao libs) body) tr e) :
    e.Threw ↔ ¬ Legible libs body tr "/user_register" := by
  cases userRegister_ok.ends hr with
  | badJson hp => exact legible_iff id (legible_of_none hp (by simp [RedisAnswered]))
  | unreadable hp hkey hw =>
    exact iff_of_true trivial (not_legible hp fun h => not_isText hw (h.1 _ hkey))
  | noConn form | absent form =>
    exact legible_iff id
      (registerForm_legible form (by simp [RedisAnswered]) (by simp [CodeFound]))
  | expired form =>
    exact legible_iff id
      (registerForm_legible form (by simp [RedisAnswered]) (by simp +contextual [CodeFound]))
  | getThrew => exact iff_of_true trivial fun h => (h.redis ..).1 (.tail _ (.head _))
  | existsThrew => exact iff_of_true trivial fun h => (h.redis ..).2 (.tail _ (.tail _ (.head _)))
  | codeUnreadable form hcode hw =>
    refine iff_of_true trivial (not_legible form.parse fun h => not_isText hw (h.2 ?_))
    exact ⟨_, _, _, .tail _ (.head _), hcode⟩
  | mismatch form _ hgiven | exist form _ hgiven =>
    exact legible_iff id
      (registerForm_legible form (by simp [RedisAnswered]) fun _ => ⟨_, hgiven⟩)
  | regThrew _ _ _ hrun | regFault _ _ _ hrun =>
    obtain ⟨r, h, -⟩ := MysqlDao.regUser_runs hrun
    cases h
  | refused form _ hgiven hrun | twice form _ hgiven hrun | registered form _ hgiven hrun =>
    obtain ⟨r, -, hcall⟩ := MysqlDao.regUser_runs hrun
    refine legible_iff id (registerForm_legible form ?_ fun _ => ⟨_, hgiven⟩)
    simp only [redisAnswered_append, callRun_redis hcall]
    simp [RedisAnswered]

theorem submitForm_legible (form : SubmitForm libs body src email uid newPasswd given)
    (hr : RedisAnswered tr) : Legible libs body tr "/submit_forget_passwd" := by
  apply legible_of_some form.parse hr
  unfold FieldsConvert
  simp only [List.forall_mem_cons, List.not_mem_nil, IsEmpty.forall_iff, implies_true, and_true]
  exact ⟨⟨_, form.email⟩, ⟨_, form.uid⟩, ⟨_, form.newPasswd⟩, ⟨_, form.varifyCode⟩⟩

theorem submitForgetPasswd_threw (hr : Runs (submitForgetPasswd libs (.ofDao libs) body) tr e) :
    e.Threw ↔ ¬ Legible libs body tr "/submit_forget_passwd" := by
  cases submitForgetPasswd_ok.ends hr with
  | badJson hp => exact legible_iff id (legible_of_none hp (by simp [RedisAnswered]))
  | unreadable hp hkey hw =>
    exact iff_of_true trivial (not_legible hp fun h => not_isText hw (h _ hkey))
  | noConn form | absent form | expired form | mismatch form =>
    exact legible_iff id (submitForm_legible form (by simp [RedisAnswered]))
  | getThrew => exact iff_of_true trivial fun h => (h.redis ..).1 (.tail _ (.head _))
  | changeThrew _ _ hrun | changeFault _ _ hrun =>
    obtain ⟨r, h, -⟩ := MysqlDao.changePasswd_runs hrun
    cases h
  | refused form _ hrun | changed form _ hrun | unnamed form _ hrun =>
    obtain ⟨r, -, hcall⟩ := MysqlDao.changePasswd_runs hrun
    refine legible_iff id (submitForm_legible form ?_)
    simp only [redisAnswered_append, callRun_redis hcall]
    simp [RedisAnswered]

theorem loginForm_legible (form : LoginForm libs body email pwd isEmail user)
    (hr : RedisAnswered tr) : Legible libs body tr "/user_login" := by
  obtain ⟨src, name, hp, he, hn, hw, hm, hu⟩ := form.src
  refine legible_of_some hp hr ⟨?_, isEmail, hm, fun h => ?_⟩
  · simp only [List.forall_mem_cons, List.not_mem_nil, IsEmpty.forall_iff, implies_true, and_true]
    exact ⟨⟨_, he⟩, ⟨_, hn⟩, ⟨_, hw⟩⟩
  · obtain ⟨uid, huid, -⟩ := hu h
    exact ⟨uid, huid⟩

theorem loginReadable_of_fields (hp : libs.parse body = some src)
    (h : FieldsConvert src tr "/user_login") : LoginReadable libs body := by
  obtain ⟨htexts, isEmail, hm, hu⟩ := h
  obtain ⟨email, he⟩ := htexts "email" (by simp)
  obtain ⟨name, hn⟩ := htexts "user" (by simp)
  obtain ⟨pwd, hw⟩ := htexts "passwd" (by simp)
  exact ⟨src, email, name, pwd, isEmail, hp, he, hn, hw, hm, hu⟩

theorem userLogin_threw (hr : Runs (userLogin libs (.ofDao libs) body) tr e) :
    e.Threw ↔ ¬ Legible libs body tr "/user_login" := by
  cases userLogin_ok.ends hr with
  | badJson hp => exact legible_iff id (legible_of_none hp (by simp [RedisAnswered]))
  | unreadable hno =>
    refine iff_of_true trivial fun h => ?_
    cases hp : libs.parse body with
    | some src => exact hno (loginReadable_of_fields hp (h.fields src hp))
    | none =>
      unfold userLogin at hr
      rw [hp] at hr
      cases hr
  | loginThrew form hrun =>
    exact absurd trivial (loginRun_redis (MysqlDao.loginUser_ok.ends hrun)).1
  | loginFault form hrun =>
    exact legible_iff id
      (loginForm_legible form (loginRun_redis (MysqlDao.loginUser_ok.ends hrun)).2)
  | rejected form hrun | noStub form hrun | rpcFailed form hrun =>
    refine legible_iff id (loginForm_legible form ?_)
    simp only [redisAnswered_append, (loginRun_redis (MysqlDao.loginUser_ok.ends hrun)).2]
    simp [RedisAnswered]
  | idThrew _ _ _ _ _ _ hrun =>
    exact absurd trivial (uidRun_redis (MysqlDao.getUserUid_ok.ends hrun)).1
  | idFault form hrun _ _ _ _ hrun' | loggedIn form hrun _ _ _ _ hrun' =>
    refine legible_iff id (loginForm_legible form ?_)
    simp only [redisAnswered_append, (loginRun_redis (MysqlDao.loginUser_ok.ends hrun)).2,
      (uidRun_redis (MysqlDao.getUserUid_ok.ends hrun')).2]
    simp [RedisAnswered]

theorem forgetForm_legible (form : ForgetForm libs body src email uid) (hr : RedisAnswered tr) :
    Legible libs body tr "/get_varify_code_forget_passwd" := by
  apply legible_of_some form.parse hr
  unfold FieldsConvert
  simp only [List.forall_mem_cons, List.not_mem_nil, IsEmpty.forall_iff, implies_true, and_true]
  exact ⟨⟨_, form.email⟩, ⟨_, form.uid⟩⟩

theorem getVarifyCodeForgetPasswd_threw
    (hr : Runs (getVarifyCodeForgetPasswd libs (.ofDao libs) body) tr e) :
    e.Threw ↔ ¬ Legible libs body tr "/get_varify_code_forget_passwd" := by
  cases getVarifyCodeForgetPasswd_exits.ends hr with
  | badJson hp => exact legible_iff id (legible_of_none hp (by simp [RedisAnswered]))
  | unreadable hp hkey hw =>
    exact iff_of_true trivial (not_legible hp fun h => not_isText hw (h _ hkey))
  | existsThrew form hrun =>
    exact absurd trivial (existsRun_redis (MysqlDao.existsUser_ok.ends hrun)).1
  | existsFault form hrun =>
    exact legible_iff id
      (forgetForm_legible form (existsRun_redis (MysqlDao.existsUser_ok.ends hrun)).2)
  | unknown form hrun =>
    refine legible_iff id (forgetForm_legible form ?_)
    simp only [redisAnswered_append, (existsRun_redis (MysqlDao.existsUser_ok.ends hrun)).2]
    simp [RedisAnswered]
  | answered form hrun hrsp =>
    refine legible_iff id (forgetForm_legible form ?_)
    simp only [redisAnswered_append, (existsRun_redis (MysqlDao.existsUser_ok.ends hrun)).2,
      varifyRun_redis hrsp]
    simp [RedisAnswered]

theorem iconForm_fields (form : IconForm libs body src isEmail) :
    FieldsConvert src tr "/get_user_icon" ↔
      IsText src (if isEmail ≠ 0 then "email" else "uid") := by
  refine ⟨fun h => ?_, fun ht => ⟨isEmail, form.isEmail, ht⟩⟩
  obtain ⟨isEmail', hm', ht⟩ := h
  cases form.isEmail.symm.trans hm'
  exact ht

theorem emailForm_legible (form : IconForm libs body src isEmail) (h0 : isEmail ≠ 0)
    (he : src.text "email" = .ok email) (hr : RedisAnswered tr) :
    Legible libs body tr "/get_user_icon" := by
  refine legible_of_some form.parse hr ((iconForm_fields form).mpr ?_)
  rw [if_pos h0]
  exact ⟨email, he⟩

theorem iconId_legible (hid : IconId libs (.ofDao libs) body tr userId) (hr : RedisAnswered tail) :
    Legible libs body (tr ++ tail) "/get_user_icon" := by
  cases hid with
  | byEmail form h0 he hrun =>
    refine emailForm_legible form h0 he (redisAnswered_append.mpr ⟨?_, hr⟩)
    exact (uidRun_redis (MysqlDao.getUserUid_ok.ends hrun)).2
  | byUid form hu => exact legible_of_some form.parse hr ((iconForm_fields form).mpr ⟨_, hu⟩)

theorem getUserIcon_threw (hr : Runs (getUserIcon libs (.ofDao libs) body) tr e) :
    e.Threw ↔ ¬ Legible libs body tr "/get_user_icon" := by
  cases getUserIcon_exits.ends hr with
  | badJson hp => exact legible_iff id (legible_of_none hp (by simp [RedisAnswered]))
  | noNumber hp hm =>
    refine iff_of_true trivial (not_legible hp ?_)
    rintro ⟨isEmail, h, -⟩
    cases hm.symm.trans h
  | unreadable form hw =>
    exact iff_of_true trivial
      (not_legible form.parse fun h => not_isText hw ((iconForm_fields form).mp h))
  | idThrew _ _ _ hrun =>
    exact absurd trivial (uidRun_redis (MysqlDao.getUserUid_ok.ends hrun)).1
  | idFault form h0 he hrun =>
    exact legible_iff id
      (emailForm_legible form h0 he (uidRun_redis (MysqlDao.getUserUid_ok.ends hrun)).2)
  | iconThrew _ hrun | iconFault _ hrun =>
    obtain ⟨data, h, -⟩ := MysqlDao.getUserIcon_runs hrun
    cases h
  | answered hid hrun =>
    obtain ⟨data, -, hicon⟩ := MysqlDao.getUserIcon_runs hrun
    rw [List.append_assoc]
    refine legible_iff id (iconId_legible hid (redisAnswered_append.mpr ⟨?_, ?_⟩))
    · exact iconRun_redis hicon
    · simp [RedisAnswered]

/-- On every route the handler throws iff the request is not what it reads or Redis has thrown.
-/
theorem postHandlers_threw_iff (hroute : (path, handler) ∈ postHandlers libs (.ofDao libs))
    (hr : Runs (handler body) tr e) : e.Threw ↔ ¬ Legible libs body tr path := by
  simp only [postHandlers, List.mem_cons, List.not_mem_nil, or_false, Prod.mk.injEq] at hroute
  rcases hroute with ⟨rfl, rfl⟩ | ⟨rfl, rfl⟩ | ⟨rfl, rfl⟩ | ⟨rfl, rfl⟩ | ⟨rfl, rfl⟩ | ⟨rfl, rfl⟩
  · exact getVarifyCode_threw hr
  · exact userRegister_threw hr
  · exact userLogin_threw hr
  · exact getVarifyCodeForgetPasswd_threw hr
  · exact submitForgetPasswd_threw hr
  · exact getUserIcon_threw hr

theorem fieldsConvert_unregistered (hpath : ∀ route ∈ postHandlers libs mgr, path ≠ route.1) :
    FieldsConvert src tr path := by
  unfold FieldsConvert
  split
  · exact absurd rfl (hpath _ (.head _))
  · exact absurd rfl (hpath _ (.tail _ (.head _)))
  · exact absurd rfl (hpath _ (.tail _ (.tail _ (.head _))))
  · exact absurd rfl (hpath _ (.tail _ (.tail _ (.tail _ (.head _)))))
  · exact absurd rfl (hpath _ (.tail _ (.tail _ (.tail _ (.tail _ (.head _))))))
  · exact absurd rfl (hpath _ (.tail _ (.tail _ (.tail _ (.tail _ (.tail _ (.head _)))))))
  · trivial

end GateServer.LogicalSystem
