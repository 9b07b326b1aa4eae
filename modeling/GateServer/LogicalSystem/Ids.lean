import GateServer.LogicalSystem.Exits
import GateServer.MySqlDao.Exits

/-!
# Conversions of account ids

An account id is a `uint64_t` in the database. The handlers convert it through text,
`int`, `long` and `uint64_t`, and use it in three places: the call of `Login_user`, the
request for a chat server, and the query for an icon.
-/

namespace GateServer.LogicalSystem

open Interact MysqlDao

-- ---------------------------------------------------------------------------
-- Ids in a trace
-- ---------------------------------------------------------------------------

def loginIds (tr : Trace) : List Nat :=
  tr.filterMap fun
    | ⟨.execute _ (.loginUser _ _ uid _), _⟩ => some uid
    | _ => none

def iconIds (tr : Trace) : List Int :=
  tr.filterMap fun
    | ⟨.store _ (.selectUserIcon uid), _⟩ => some uid
    | _ => none

def uidAnswers (tr : Trace) : List (Option Cell) :=
  tr.filterMap fun
    | ⟨.store _ .selectUserUid, .ok res⟩ => some res.first
    | _ => none

def emailCells (tr : Trace) : List Cell :=
  tr.filterMap fun
    | ⟨.store _ (.selectGetUserUid _), .ok res⟩ => res.first
    | _ => none

@[simp] theorem loginIds_append (tr tr' : Trace) :
    loginIds (tr ++ tr') = loginIds tr ++ loginIds tr' := List.filterMap_append ..

@[simp] theorem iconIds_append (tr tr' : Trace) :
    iconIds (tr ++ tr') = iconIds tr ++ iconIds tr' := List.filterMap_append ..

@[simp] theorem uidAnswers_append (tr tr' : Trace) :
    uidAnswers (tr ++ tr') = uidAnswers tr ++ uidAnswers tr' := List.filterMap_append ..

@[simp] theorem emailCells_append (tr tr' : Trace) :
    emailCells (tr ++ tr') = emailCells tr ++ emailCells tr' := List.filterMap_append ..

-- ---------------------------------------------------------------------------
-- The four paths
-- ---------------------------------------------------------------------------

def ByUid (libs : Libs) (body : String) (userId : Nat) : Prop :=
  ∃ src, libs.parse body = some src ∧ src.get "is_email" >>= Json.Value.asInt = .ok 0 ∧
    src.text "uid" = .ok (toString userId)

/-- How an id gets into a handler, with the other answers of the database about it. -/
inductive Way
  | loginCall
  | chatByUid (answer : Option Cell)
  | chatByAnswer
  | iconByUid
  | iconByAnswer (truth : Option Bool)

/-- The client or the database gives the id, and the run uses `n` for it. -/
inductive Carried (libs : Libs) (body : String) (tr : Trace) : Way → Nat → Int → Prop
  | loginCall : ByUid libs body userId → uid ∈ loginIds tr →
      Carried libs body tr .loginCall userId uid
  | chatByUid : ByUid libs body userId → answer ∈ uidAnswers tr →
      (n, status, respon) ∈ chatServers tr → Carried libs body tr (.chatByUid answer) userId n
  | chatByAnswer : some cell ∈ uidAnswers tr → cell.data = toString userId →
      (n, status, respon) ∈ chatServers tr → Carried libs body tr .chatByAnswer userId n
  | iconByUid : ByUid libs body userId → n ∈ iconIds tr →
      Carried libs body tr .iconByUid userId n
  | iconByAnswer : cell ∈ emailCells tr → cell.data = toString userId → n ∈ iconIds tr →
      Carried libs body tr (.iconByAnswer (libs.truth cell)) userId n

/-- An `int` can hold the id, and the database agrees with the client about it; the login call
can hold one more. -/
def Way.Keeps : Way → Nat → Prop
  | .loginCall, userId => userId < 2 ^ 31 ∨ userId = 2 ^ 64 - 1
  | .chatByUid (some cell), userId => userId < 2 ^ 31 ∧ strtol cell.data % 2 ^ 32 = userId
  | .chatByUid none, userId | .chatByAnswer, userId | .iconByUid, userId => userId < 2 ^ 31
  | .iconByAnswer truth, userId => userId < 2 ^ 31 ∧ (truth = some false → userId = 0)

-- ---------------------------------------------------------------------------
-- The methods
-- ---------------------------------------------------------------------------

theorem loginRun_ids (hr : LoginRun pwd user isEmail tr e) :
    (∀ uid ∈ loginIds tr, uid = user.uid) ∧ chatServers tr = [] ∧ iconIds tr = [] := by
  cases hr <;> simp [loginIds, chatServers, iconIds]

theorem loginRun_answers (hr : LoginRun pwd user isEmail tr (.ret (result, user')))
    (h0 : result ≠ ErrorCodes.mySqlError) :
    ∃ res, uidAnswers tr = [res.first] ∧ user' = withUid user res := by
  cases hr with
  | @answered _ _ _ uid => exact ⟨uid, rfl, rfl⟩
  | _ => exact absurd rfl h0

structure NoIds (tr : Trace) : Prop where
  logins : loginIds tr = []
  chats : chatServers tr = []
  answers : uidAnswers tr = []
  icons : iconIds tr = []

theorem NoIds.append (h : NoIds tr) (h' : NoIds tr') : NoIds (tr ++ tr') := by
  constructor <;> simp [h.logins, h.chats, h.answers, h.icons, h'.logins, h'.chats, h'.answers,
    h'.icons]

theorem uidRun_noIds (hr : UidRun libs email tr e) : NoIds tr := by
  cases hr <;> exact ⟨rfl, rfl, rfl, rfl⟩

theorem emailCells_answer (hok : res.ok = true) (hrows : res.rows = cell :: rows) :
    emailCells [⟨.acquire .mySql, some conn⟩, ⟨.store conn (.selectGetUserUid email), .ok res⟩,
      ⟨.release .mySql conn, ()⟩] = [cell] := by
  simp [emailCells, StoreQueryResult.first, hok, hrows]

theorem uidRun_cell (hr : UidRun libs email tr (.ret uid)) (hc : cell ∈ emailCells tr) :
    uid = if libs.truth cell = some false then 0 else toUInt64 (atol cell.data) := by
  cases hr with
  | noConn => simp [emailCells] at hc
  | failed hok => simp [emailCells, StoreQueryResult.first, hok] at hc
  | zero hok hrows htruth =>
    rw [emailCells_answer hok hrows, List.mem_singleton] at hc
    subst hc
    rw [if_pos htruth]
  | answered hok hrows htruth =>
    rw [emailCells_answer hok hrows, List.mem_singleton] at hc
    subst hc
    rw [if_neg (by simp [htruth])]

theorem iconRun_ids (hr : IconRun uid tr data) :
    (∀ n ∈ iconIds tr, n = uid) ∧ emailCells tr = [] ∧ loginIds tr = [] ∧
      chatServers tr = [] := by
  cases hr <;> simp [iconIds, emailCells, loginIds, chatServers]

-- ---------------------------------------------------------------------------
-- The handlers
-- ---------------------------------------------------------------------------

structure LoginUses (libs : Libs) (body : String) (tr : Trace) : Prop where
  calls : ∀ uid ∈ loginIds tr, ∃ email pwd isEmail user,
    LoginForm libs body email pwd isEmail user ∧ uid = user.uid
  chats : ∀ n status respon, (n, status, respon) ∈ chatServers tr →
    ∃ email pwd isEmail user res, LoginForm libs body email pwd isEmail user ∧
      uidAnswers tr = [res.first] ∧ n = toInt32 (withUid user res).uid
  icons : iconIds tr = []

theorem loginUses_quiet (h : NoIds tr) : LoginUses libs body tr := by
  refine ⟨?_, ?_, h.icons⟩ <;> simp [h.logins, h.chats]

theorem loginUses_login (form : LoginForm libs body email pwd isEmail user)
    (hr : LoginRun pwd user isEmail tr r) (h : NoIds tail) : LoginUses libs body (tr ++ tail) := by
  obtain ⟨hcalls, hchats, hicons⟩ := loginRun_ids hr
  refine ⟨?_, by simp [hchats, h.chats], by simp [hicons, h.icons]⟩
  intro uid huid
  rw [loginIds_append, h.logins, List.append_nil] at huid
  exact ⟨email, pwd, isEmail, user, form, hcalls uid huid⟩

theorem loginUses_letIn (form : LoginForm libs body email pwd isEmail user)
    (hr : LoginRun pwd user isEmail tr (.ret (result, user')))
    (h0 : result ≠ ErrorCodes.mySqlError) (h : NoIds tail) :
    LoginUses libs body (tr ++ ([⟨.acquire .status, some stub⟩] ++
      ([⟨.getChatServer stub (toInt32 user'.uid), (status, respon)⟩] ++ tail))) := by
  obtain ⟨hcalls, hchats, hicons⟩ := loginRun_ids hr
  obtain ⟨res, hres, rfl⟩ := loginRun_answers hr h0
  refine ⟨?_, ?_, ?_⟩
  · intro uid huid
    simp only [loginIds_append, h.logins, List.mem_append] at huid
    obtain huid | huid | huid | huid := huid
    · exact ⟨email, pwd, isEmail, user, form, hcalls uid huid⟩
    all_goals cases huid
  · intro n status' respon' hn
    simp only [chatServers_append, hchats, h.chats, List.nil_append, List.append_nil] at hn
    obtain ⟨hn, -⟩ := Prod.mk.inj (List.mem_singleton.mp hn)
    refine ⟨email, pwd, isEmail, user, res, form, ?_, hn⟩
    simp only [uidAnswers_append, hres, h.answers]
    rfl
  · simp only [iconIds_append, hicons, h.icons]
    rfl

theorem userLogin_uses (hr : Runs (userLogin libs (.ofDao libs) body) tr e) :
    LoginUses libs body tr := by
  have hnil : NoIds [] := ⟨rfl, rfl, rfl, rfl⟩
  cases userLogin_ok.ends hr with
  | badJson => exact loginUses_quiet ⟨rfl, rfl, rfl, rfl⟩
  | unreadable => exact loginUses_quiet hnil
  | loginThrew form hrun => simpa using loginUses_login form (MysqlDao.loginUser_ok.ends hrun) hnil
  | loginFault form hrun => simpa using loginUses_login form (MysqlDao.loginUser_ok.ends hrun) hnil
  | rejected form hrun =>
    rw [List.append_assoc]
    exact loginUses_login form (MysqlDao.loginUser_ok.ends hrun) ⟨rfl, rfl, rfl, rfl⟩
  | noStub form hrun =>
    exact loginUses_login form (MysqlDao.loginUser_ok.ends hrun) ⟨rfl, rfl, rfl, rfl⟩
  | rpcFailed form hrun h0 =>
    simp only [List.append_assoc]
    exact loginUses_letIn form (MysqlDao.loginUser_ok.ends hrun) h0 ⟨rfl, rfl, rfl, rfl⟩
  | idThrew _ _ _ _ _ _ hrun' => cases getUserUid_ok.ends hrun'
  | idFault form hrun h0 _ _ _ hrun' =>
    have hid := uidRun_noIds (getUserUid_ok.ends hrun')
    simp only [List.append_assoc]
    exact loginUses_letIn form (MysqlDao.loginUser_ok.ends hrun) h0 hid
  | loggedIn form hrun h0 _ _ _ hrun' =>
    have hid := uidRun_noIds (getUserUid_ok.ends hrun')
    simp only [List.append_assoc]
    exact loginUses_letIn form (MysqlDao.loginUser_ok.ends hrun) h0
      (hid.append ⟨rfl, rfl, rfl, rfl⟩)

structure IconUses (libs : Libs) (body : String) (tr : Trace) : Prop where
  byUid : ∀ n ∈ iconIds tr, ∀ src uidStr, libs.parse body = some src →
    src.get "is_email" >>= Json.Value.asInt = .ok 0 → src.text "uid" = .ok uidStr →
    n = toInt32 (toUInt64 (atoi uidStr))
  byAnswer : ∀ n ∈ iconIds tr, ∀ cell ∈ emailCells tr,
    n = toInt32 (if libs.truth cell = some false then 0 else toUInt64 (atol cell.data) : Nat)
  logins : loginIds tr = []
  chats : chatServers tr = []

theorem iconUses_quiet (h : NoIds tr) : IconUses libs body tr := by
  refine ⟨?_, ?_, h.logins, h.chats⟩ <;> simp [h.icons]

theorem iconId_given (h : IconId libs (.ofDao libs) body tr userId) :
    NoIds tr ∧
      (∀ src uidStr, libs.parse body = some src → src.get "is_email" >>= Json.Value.asInt = .ok 0 →
        src.text "uid" = .ok uidStr → userId = toUInt64 (atoi uidStr)) ∧
      ∀ cell ∈ emailCells tr,
        userId = if libs.truth cell = some false then 0 else toUInt64 (atol cell.data) := by
  cases h with
  | byEmail form h0 he hrun =>
    have hrun := getUserUid_ok.ends hrun
    refine ⟨uidRun_noIds hrun, ?_, fun cell hc => uidRun_cell hrun hc⟩
    intro src' uidStr hp' hm' _
    cases form.parse.symm.trans hp'
    cases form.isEmail.symm.trans hm'
    exact absurd rfl h0
  | byUid form hu =>
    refine ⟨⟨rfl, rfl, rfl, rfl⟩, ?_, by simp [emailCells]⟩
    intro src' uidStr' hp' _ hu'
    cases form.parse.symm.trans hp'
    cases hu.symm.trans hu'
    rfl

/-- The query for the icon is for the id that the handler has found. -/
theorem iconId_uses (hid : IconId libs (.ofDao libs) body tr userId)
    (hicon : IconRun (toInt32 userId) tr' data) (doc : Json.Object) :
    IconUses libs body (tr ++ tr' ++ [⟨.write doc, ()⟩]) := by
  obtain ⟨hids, hbyUid, hbyAnswer⟩ := iconId_given hid
  obtain ⟨hicons, hcells, hlogins, hchats⟩ := iconRun_ids hicon
  have hn : ∀ n ∈ iconIds (tr ++ tr' ++ [⟨.write doc, ()⟩]), n = toInt32 userId := by
    simp only [iconIds_append, hids.icons, List.nil_append, List.mem_append]
    rintro n (hn | hn)
    · exact hicons n hn
    · cases hn
  refine ⟨?_, ?_, ?_, ?_⟩
  · intro n hmem src uidStr hp hm hu
    rw [hn n hmem, hbyUid src uidStr hp hm hu]
  · intro n hmem cell hcell
    simp only [emailCells_append, hcells, List.append_nil, List.mem_append] at hcell
    rw [hn n hmem, hbyAnswer cell (hcell.resolve_right nofun)]
  · simp only [loginIds_append, hids.logins, hlogins]
    rfl
  · simp only [chatServers_append, hids.chats, hchats]
    rfl

theorem getUserIcon_uses (hr : Runs (getUserIcon libs (.ofDao libs) body) tr e) :
    IconUses libs body tr := by
  have hnil : NoIds [] := ⟨rfl, rfl, rfl, rfl⟩
  cases getUserIcon_exits.ends hr with
  | badJson => exact iconUses_quiet hnil
  | noNumber => exact iconUses_quiet hnil
  | unreadable => exact iconUses_quiet hnil
  | idThrew _ _ _ hrun => exact iconUses_quiet (uidRun_noIds (getUserUid_ok.ends hrun))
  | idFault _ _ _ hrun => exact iconUses_quiet (uidRun_noIds (getUserUid_ok.ends hrun))
  | iconThrew _ hrun | iconFault _ hrun =>
    obtain ⟨data, h, -⟩ := getUserIcon_runs hrun
    cases h
  | answered hid hrun =>
    obtain ⟨data, -, hicon⟩ := getUserIcon_runs hrun
    exact iconId_uses hid hicon _

-- ---------------------------------------------------------------------------
-- Every way
-- ---------------------------------------------------------------------------

theorem loginForm_uid (form : LoginForm libs body email pwd isEmail user)
    (h : ByUid libs body userId) : user.uid = toUInt64 (atoi (toString userId)) := by
  obtain ⟨src, hp, hm, hu⟩ := h
  obtain ⟨src', name, hp', -, -, -, hm', huid⟩ := form.src
  cases hp.symm.trans hp'
  cases hm.symm.trans hm'
  obtain ⟨uid, hu', huser⟩ := huid rfl
  cases hu.symm.trans hu'
  exact huser

theorem toInt32_atoi (s : String) : toInt32 (toUInt64 (atoi s)) = toInt32 (strtol s) := by
  rw [toInt32_toUInt64, atoi, toInt32_toInt32]

theorem toInt32_eq_iff (n : Int) (userId : Nat) :
    toInt32 n = userId ↔ userId < 2 ^ 31 ∧ n % 2 ^ 32 = userId := by
  unfold toInt32
  rw [Int.bmod_def]
  omega

theorem userLogin_keeps_iff (h : LoginUses libs body tr) (hid : userId < 2 ^ 64)
    (hc : Carried libs body tr way userId n) : n = userId ↔ way.Keeps userId := by
  cases hc with
  | loginCall hby huid =>
    obtain ⟨_, _, _, user, form, rfl⟩ := h.calls _ huid
    rw [loginForm_uid form hby, Int.natCast_inj]
    exact toUInt64_atoi_iff hid
  | @chatByUid _ answer _ status respon hby hans hchat =>
    obtain ⟨_, _, _, user, res, form, hres, hn⟩ := h.chats _ _ _ hchat
    rw [hres, List.mem_singleton] at hans
    subst hans
    rw [hn, withUid]
    cases hfirst : res.first with
    | none =>
      simp only [loginForm_uid form hby, toInt32_atoi]
      exact toInt32_strtol_iff userId
    | some cell =>
      simp only [toInt32_atoi]
      exact toInt32_eq_iff _ userId
  | chatByAnswer hans hcell hchat =>
    obtain ⟨_, _, _, user, res, form, hres, hn⟩ := h.chats _ _ _ hchat
    rw [hres, List.mem_singleton] at hans
    simp only [hn, withUid, ← hans, toInt32_atoi, hcell]
    exact toInt32_strtol_iff userId
  | iconByUid _ hicon => simp [h.icons] at hicon
  | iconByAnswer _ _ hicon => simp [h.icons] at hicon

theorem getUserIcon_keeps_iff (h : IconUses libs body tr)
    (hc : Carried libs body tr way userId n) : n = userId ↔ way.Keeps userId := by
  cases hc with
  | loginCall _ huid => simp [h.logins] at huid
  | chatByUid _ _ hchat => simp [h.chats] at hchat
  | chatByAnswer _ _ hchat => simp [h.chats] at hchat
  | iconByUid hby hicon =>
    obtain ⟨src, hp, hm, hu⟩ := hby
    rw [h.byUid _ hicon src _ hp hm hu, toInt32_atoi]
    exact toInt32_strtol_iff userId
  | @iconByAnswer cell _ _ hcell hdata hicon =>
    rw [h.byAnswer _ hicon cell hcell, hdata, Way.Keeps]
    by_cases hfalse : libs.truth cell = some false
    · simp only [hfalse, if_true, forall_const]
      have hzero : toInt32 (0 : Nat) = 0 := by decide
      rw [hzero]
      omega
    · rw [if_neg hfalse, toInt32_toUInt64, atol, toInt32_strtol_iff userId]
      exact (and_iff_left fun h => absurd h hfalse).symm

/-- The account id is preserved through a handler iff no type on its way is too narrow for it
and no source gives another number. -/
theorem ids_kept_iff (libs : Libs) (hid : userId < 2 ^ 64) :
    (∀ body tr e, Runs (userLogin libs (.ofDao libs) body) tr e → ∀ way n,
      Carried libs body tr way userId n → (n = userId ↔ way.Keeps userId)) ∧
    ∀ body tr e, Runs (getUserIcon libs (.ofDao libs) body) tr e → ∀ way n,
      Carried libs body tr way userId n → (n = userId ↔ way.Keeps userId) := by
  constructor
  · intro body tr e hr way n hc
    exact userLogin_keeps_iff (userLogin_uses hr) hid hc
  · intro body tr e hr way n hc
    exact getUserIcon_keeps_iff (getUserIcon_uses hr) hc

-- ---------------------------------------------------------------------------
-- An icon by number
-- ---------------------------------------------------------------------------

def numberBody (uidStr : String) : String := "\x7b\"uid\":\"" ++ uidStr ++ "\"\x7d"

def numberLibs (uidStr : String) : Libs :=
  .ofBodies [(numberBody uidStr, .object [("uid", .string uidStr)])]

def numberTrace (uidStr : String) (uid : Int) : Trace :=
  [⟨.acquire .mySql, some 0⟩, ⟨.store 0 (.selectUserIcon uid), .ok ⟨true, []⟩⟩,
    ⟨.release .mySql 0, ()⟩, ⟨.write [("user_icon", .string "NULL"), ("error", .integer 1006),
      ("uid", .string uidStr)], ()⟩]

theorem numberLibs_parse (uidStr : String) :
    (numberLibs uidStr).parse (numberBody uidStr) = some (.object [("uid", .string uidStr)]) := by
  simp [numberLibs, Libs.ofBodies]

theorem numberTrace_runs (uidStr : String) :
    Runs (getUserIcon (numberLibs uidStr) (.ofDao (numberLibs uidStr)) (numberBody uidStr))
      (numberTrace uidStr (toInt32 (toUInt64 (atoi uidStr)))) (.undef .offEnd) := by
  unfold getUserIcon
  rw [numberLibs_parse]
  exact .call _ (.call _ (.call _ (.call _ .refl)))

theorem numberLibs_byUid (userId : Nat) :
    ByUid (numberLibs (toString userId)) (numberBody (toString userId)) userId :=
  ⟨_, numberLibs_parse _, rfl, rfl⟩

theorem numberTrace_carries (userId : Nat) (uid : Int) :
    Carried (numberLibs (toString userId)) (numberBody (toString userId))
      (numberTrace (toString userId) uid) .iconByUid userId uid :=
  .iconByUid (numberLibs_byUid userId) (.head _)

theorem ids_kept_seven :
    toInt32 (toUInt64 (atoi (toString 7))) = (7 : Nat) := by
  have hseven : 7 < 2 ^ 64 := by decide
  refine ((ids_kept_iff (numberLibs (toString 7)) hseven).2 _ _ _
    (numberTrace_runs _) _ _ (numberTrace_carries 7 _)).mpr ?_
  show 7 < 2 ^ 31
  decide

/-- A request for the icon of account `2 ^ 32 + 7` gets that of account 7. -/
theorem two_accounts_one_icon : ∃ tr,
    Runs (getUserIcon (numberLibs (toString 4294967303)) (.ofDao (numberLibs (toString 4294967303)))
      (numberBody (toString 4294967303))) tr (.undef .offEnd) ∧
    Carried (numberLibs (toString 4294967303)) (numberBody (toString 4294967303)) tr .iconByUid
      4294967303 7 := by
  have hid : toInt32 (toUInt64 (atoi (toString 4294967303))) = 7 := by decide
  refine ⟨numberTrace (toString 4294967303) 7, ?_, numberTrace_carries 4294967303 7⟩
  rw [← hid]
  exact numberTrace_runs _

end GateServer.LogicalSystem
