import GateServer.LogicalSystem

/-!
# Exits of the handlers

One table for each handler, over any MySQL manager, with the trace and the end of every
run. Log messages are left open. A reply is described by what later results read of it.
-/

namespace GateServer.LogicalSystem

open Interact

variable {libs : Libs} {mgr : MySqlMgr} {body : String}

-- ---------------------------------------------------------------------------
-- The stored code
-- ---------------------------------------------------------------------------

inductive LookupRun (email : String) : Trace → Exit (Conn × String) → Prop
  | noConn : LookupRun email [⟨.acquire .redis, none⟩] (.undef .nullPointer)
  | getThrew : LookupRun email
      [⟨.acquire .redis, some conn⟩, ⟨.redisGet conn ("code_" ++ email), .error w⟩] (.threw w)
  | absent : LookupRun email
      [⟨.acquire .redis, some conn⟩, ⟨.redisGet conn ("code_" ++ email), .ok none⟩]
      (.undef .emptyOptional)
  | found : LookupRun email
      [⟨.acquire .redis, some conn⟩, ⟨.redisGet conn ("code_" ++ email), .ok (some code)⟩]
      (.ret (conn, code))

theorem lookupCode_ok : Spec .any [] (lookupCode email) (LookupRun email) := by
  refine .ask fun conn => ?_
  cases conn with
  | none => exact .noConn
  | some conn =>
  refine .ask fun stored => ?_
  rcases stored with w | _ | code
  · exact .getThrew
  · exact .absent
  · exact .found

-- ---------------------------------------------------------------------------
-- Registration
-- ---------------------------------------------------------------------------

/-- The fields that a registration reads first. -/
structure RegisterForm (libs : Libs) (body : String) (src : Json.Value)
    (email name pwd : String) : Prop where
  parse : libs.parse body = some src
  email : src.text "email" = .ok email
  user : src.text "user" = .ok name
  passwd : src.text "passwd" = .ok pwd
  confirm : ∃ confirm, src.text "confirm" = .ok confirm

theorem RegisterForm.parsed (form : RegisterForm libs body src mail name pwd) :
    (libs.parse body).isSome := by
  simp [form.parse]

def Registered (doc : Json.Object) (result : Int) : Prop :=
  doc.Succeeds ∧ doc.member "uid" = some (.integer result)

inductive UserRegisterRun (libs : Libs) (mgr : MySqlMgr) (body : String) :
    Trace → Exit Bool → Prop
  | badJson : libs.parse body = none → UserRegisterRun libs mgr body
      [⟨.write (.ofError .errorJosn), ()⟩] (.ret true)
  | unreadable : libs.parse body = some src → key ∈ ["email", "user", "passwd", "confirm"] →
      src.text key = .error w → UserRegisterRun libs mgr body [] (.threw w)
  | noConn : RegisterForm libs body src email name pwd → UserRegisterRun libs mgr body
      [⟨.acquire .redis, none⟩] (.undef .nullPointer)
  | getThrew : RegisterForm libs body src email name pwd → UserRegisterRun libs mgr body
      [⟨.acquire .redis, some conn⟩, ⟨.redisGet conn ("code_" ++ email), .error w⟩] (.threw w)
  | absent : RegisterForm libs body src email name pwd → UserRegisterRun libs mgr body
      [⟨.acquire .redis, some conn⟩, ⟨.redisGet conn ("code_" ++ email), .ok none⟩]
      (.undef .emptyOptional)
  | expired : RegisterForm libs body src email name pwd → UserRegisterRun libs mgr body
      [⟨.acquire .redis, some conn⟩, ⟨.redisGet conn ("code_" ++ email), .ok (some "")⟩,
        ⟨.write (.ofError .varifyEXpired), ()⟩, ⟨.release .redis conn, ()⟩] (.ret true)
  | codeUnreadable : RegisterForm libs body src email name pwd → code ≠ "" →
      src.text "varify_code" = .error w → UserRegisterRun libs mgr body
      [⟨.acquire .redis, some conn⟩, ⟨.redisGet conn ("code_" ++ email), .ok (some code)⟩]
      (.threw w)
  | mismatch : RegisterForm libs body src email name pwd → code ≠ "" →
      src.text "varify_code" = .ok given → code ≠ given → UserRegisterRun libs mgr body
      [⟨.acquire .redis, some conn⟩, ⟨.redisGet conn ("code_" ++ email), .ok (some code)⟩,
        ⟨.write (.ofError .varifyError), ()⟩, ⟨.release .redis conn, ()⟩] (.ret true)
  | existsThrew : RegisterForm libs body src email name pwd → code ≠ "" →
      src.text "varify_code" = .ok code → UserRegisterRun libs mgr body
      [⟨.acquire .redis, some conn⟩, ⟨.redisGet conn ("code_" ++ email), .ok (some code)⟩,
        ⟨.redisExists conn (email ++ "_usr"), .error w⟩] (.threw w)
  | exist : RegisterForm libs body src email name pwd → code ≠ "" →
      src.text "varify_code" = .ok code → UserRegisterRun libs mgr body
      [⟨.acquire .redis, some conn⟩, ⟨.redisGet conn ("code_" ++ email), .ok (some code)⟩,
        ⟨.redisExists conn (email ++ "_usr"), .ok true⟩, ⟨.write (.ofError .uerExist), ()⟩,
        ⟨.release .redis conn, ()⟩] (.ret true)
  | regThrew : RegisterForm libs body src email name pwd → code ≠ "" →
      src.text "varify_code" = .ok code → Runs (mgr.regUser name email pwd) tr (.threw w) →
      UserRegisterRun libs mgr body
      ([⟨.acquire .redis, some conn⟩, ⟨.redisGet conn ("code_" ++ email), .ok (some code)⟩,
        ⟨.redisExists conn (email ++ "_usr"), .ok false⟩] ++ tr) (.threw w)
  | regFault : RegisterForm libs body src email name pwd → code ≠ "" →
      src.text "varify_code" = .ok code → Runs (mgr.regUser name email pwd) tr (.undef u) →
      UserRegisterRun libs mgr body
      ([⟨.acquire .redis, some conn⟩, ⟨.redisGet conn ("code_" ++ email), .ok (some code)⟩,
        ⟨.redisExists conn (email ++ "_usr"), .ok false⟩] ++ tr) (.undef u)
  | refused : RegisterForm libs body src email name pwd → code ≠ "" →
      src.text "varify_code" = .ok code → Runs (mgr.regUser name email pwd) tr (.ret result) →
      result = 0 ∨ result = -1 → UserRegisterRun libs mgr body
      ([⟨.acquire .redis, some conn⟩, ⟨.redisGet conn ("code_" ++ email), .ok (some code)⟩,
        ⟨.redisExists conn (email ++ "_usr"), .ok false⟩] ++ tr ++
        [⟨.write (.ofError .mySqlError), ()⟩] ++ [⟨.release .redis conn, ()⟩]) (.ret true)
  | twice : RegisterForm libs body src email name pwd → code ≠ "" →
      src.text "varify_code" = .ok code → Runs (mgr.regUser name email pwd) tr (.ret (-2)) →
      Registered doc (-2) → UserRegisterRun libs mgr body
      ([⟨.acquire .redis, some conn⟩, ⟨.redisGet conn ("code_" ++ email), .ok (some code)⟩,
        ⟨.redisExists conn (email ++ "_usr"), .ok false⟩] ++ tr ++
        [⟨.write (.ofError .emailIsRegister), ()⟩] ++ [⟨.release .redis conn, ()⟩] ++
        [⟨.write doc, ()⟩] ++ [⟨.release .redis conn, ()⟩]) (.ret true)
  | registered : RegisterForm libs body src email name pwd → code ≠ "" →
      src.text "varify_code" = .ok code → Runs (mgr.regUser name email pwd) tr (.ret result) →
      result ≠ 0 → result ≠ -1 → result ≠ -2 → Registered doc result →
      UserRegisterRun libs mgr body
      ([⟨.acquire .redis, some conn⟩, ⟨.redisGet conn ("code_" ++ email), .ok (some code)⟩,
        ⟨.redisExists conn (email ++ "_usr"), .ok false⟩] ++ tr ++
        [⟨.write doc, ()⟩] ++ [⟨.release .redis conn, ()⟩]) (.ret true)

theorem userRegister_ok :
    Spec .any [] (userRegister libs mgr body) (UserRegisterRun libs mgr body) := by
  unfold userRegister
  cases hp : libs.parse body with
  | none => exact .call fun _ => .badJson hp
  | some src =>
  simp only [text, field]
  cases he : src.text "email" with
  | error w => exact .unreadable hp (by simp) he
  | ok email =>
  cases hn : src.text "user" with
  | error w => exact .unreadable hp (by simp) hn
  | ok name =>
  cases hw : src.text "passwd" with
  | error w => exact .unreadable hp (by simp) hw
  | ok pwd =>
  cases hf : src.text "confirm" with
  | error w => exact .unreadable hp (by simp) hf
  | ok confirm =>
  have form : RegisterForm libs body src email name pwd := ⟨hp, he, hn, hw, confirm, hf⟩
  simp only [Prog.ofExcept_ok, pure_bind, redisExists, bind_assoc]
  apply lookupCode_ok.bind
  intro tr e hlook
  cases hlook with
  | noConn => exact .noConn form
  | getThrew => exact .getThrew form
  | absent => exact .absent form
  | @found conn code =>
  simp only [andThen]
  by_cases hcode : code = ""
  · subst hcode
    simp only [if_true]
    exact .call fun _ => .call fun _ => .expired form
  simp only [hcode, if_false]
  cases hv : src.text "varify_code" with
  | error w => exact .codeUnreadable form hcode hv
  | ok given =>
  simp only [Prog.ofExcept_ok, pure_bind]
  by_cases hg : code ≠ given
  · rw [if_pos hg]
    exact .call fun _ => .call fun _ => .mismatch form hcode hv hg
  rw [if_neg hg]
  obtain rfl : code = given := not_not.mp hg
  refine .ask fun exist => ?_
  cases exist with
  | error w => exact .existsThrew form hcode hv
  | ok exist =>
  simp only [Prog.ofExcept_ok, pure_bind]
  cases exist with
  | true => exact .call fun _ => .call fun _ => .exist form hcode hv
  | false =>
  simp only [Bool.false_eq_true, if_false]
  apply (spec_run _).bind
  rintro _ e ⟨tr, rfl, hrun⟩
  cases e with
  | threw w => exact .regThrew form hcode hv hrun
  | undef u => exact .regFault form hcode hv hrun
  | ret result =>
  obtain ⟨email', hemail⟩ := Json.Value.get_of_text he
  obtain ⟨user', huser⟩ := Json.Value.get_of_text hn
  obtain ⟨passwd', hpasswd⟩ := Json.Value.get_of_text hw
  obtain ⟨confirm', hconfirm⟩ := Json.Value.get_of_text hf
  obtain ⟨given', hgiven⟩ := Json.Value.get_of_text hv
  simp only [andThen, hemail, huser, hpasswd, hconfirm, hgiven, Prog.ofExcept_ok, pure_bind]
  by_cases h0 : result = 0 ∨ result = -1
  · simp only [h0, if_true]
    exact .call fun _ => .call fun _ => .refused form hcode hv hrun h0
  simp only [h0, if_false]
  rw [not_or] at h0
  have hdoc : Registered (((((((Json.Object.ofError .success).set "email" email').set "user"
      user').set "passwd" passwd').set "confirm" confirm').set "varify_code" given').set "uid"
      (.integer result)) result :=
    ⟨by simp [Json.Object.Succeeds, Json.Object.error_set_ne], Json.Object.member_set_self ..⟩
  by_cases h2 : result = -2
  · subst h2
    simp only [if_true]
    exact .call fun _ => .call fun _ => .call fun _ => .call fun _ => .twice form hcode hv hrun hdoc
  · simp only [h2, if_false]
    exact .call fun _ => .call fun _ => .registered form hcode hv hrun h0.1 h0.2 h2 hdoc

-- ---------------------------------------------------------------------------
-- A forgotten password
-- ---------------------------------------------------------------------------

structure SubmitForm (libs : Libs) (body : String) (src : Json.Value)
    (email uid newPasswd given : String) : Prop where
  parse : libs.parse body = some src
  email : src.text "email" = .ok email
  uid : src.text "uid" = .ok uid
  newPasswd : src.text "new_passwd" = .ok newPasswd
  varifyCode : src.text "varify_code" = .ok given

theorem SubmitForm.parsed (form : SubmitForm libs body src mail user pwd given) :
    (libs.parse body).isSome := by
  simp [form.parse]

def changeError : Int → Option ErrorCodes
  | -2 => some .userNotExist
  | -1 => some .mySqlError
  | -3 => some .emailIsNotMatch
  | _ => none

inductive SubmitRun (libs : Libs) (mgr : MySqlMgr) (body : String) :
    Trace → Exit Bool → Prop
  | badJson : libs.parse body = none → SubmitRun libs mgr body
      [⟨.push l m, ()⟩, ⟨.write (.ofError .errorJosn), ()⟩] (.ret true)
  | unreadable : libs.parse body = some src →
      key ∈ ["email", "uid", "new_passwd", "varify_code"] → src.text key = .error w →
      SubmitRun libs mgr body [] (.threw w)
  | noConn : SubmitForm libs body src email uid newPasswd given → SubmitRun libs mgr body
      [⟨.acquire .redis, none⟩] (.undef .nullPointer)
  | getThrew : SubmitForm libs body src email uid newPasswd given → SubmitRun libs mgr body
      [⟨.acquire .redis, some conn⟩, ⟨.redisGet conn ("code_" ++ email), .error w⟩] (.threw w)
  | absent : SubmitForm libs body src email uid newPasswd given → SubmitRun libs mgr body
      [⟨.acquire .redis, some conn⟩, ⟨.redisGet conn ("code_" ++ email), .ok none⟩]
      (.undef .emptyOptional)
  | expired : SubmitForm libs body src email uid newPasswd given → SubmitRun libs mgr body
      [⟨.acquire .redis, some conn⟩, ⟨.redisGet conn ("code_" ++ email), .ok (some "")⟩,
        ⟨.push l m, ()⟩, ⟨.write (.ofError .varifyEXpired), ()⟩, ⟨.release .redis conn, ()⟩]
      (.ret true)
  | mismatch : SubmitForm libs body src email uid newPasswd given → code ≠ "" → code ≠ given →
      SubmitRun libs mgr body
      [⟨.acquire .redis, some conn⟩, ⟨.redisGet conn ("code_" ++ email), .ok (some code)⟩,
        ⟨.push l m, ()⟩, ⟨.write (.ofError .varifyError), ()⟩, ⟨.release .redis conn, ()⟩]
      (.ret true)
  | changeThrew : SubmitForm libs body src email uid newPasswd code → code ≠ "" →
      Runs (mgr.changePasswdWhenUserForgetPasswd email uid newPasswd) tr (.threw w) →
      SubmitRun libs mgr body
      ([⟨.acquire .redis, some conn⟩, ⟨.redisGet conn ("code_" ++ email), .ok (some code)⟩] ++ tr)
      (.threw w)
  | changeFault : SubmitForm libs body src email uid newPasswd code → code ≠ "" →
      Runs (mgr.changePasswdWhenUserForgetPasswd email uid newPasswd) tr (.undef u) →
      SubmitRun libs mgr body
      ([⟨.acquire .redis, some conn⟩, ⟨.redisGet conn ("code_" ++ email), .ok (some code)⟩] ++ tr)
      (.undef u)
  | refused : SubmitForm libs body src email uid newPasswd code → code ≠ "" →
      Runs (mgr.changePasswdWhenUserForgetPasswd email uid newPasswd) tr (.ret result) →
      changeError result = some err → SubmitRun libs mgr body
      ([⟨.acquire .redis, some conn⟩, ⟨.redisGet conn ("code_" ++ email), .ok (some code)⟩] ++
        tr ++ [⟨.push l m, ()⟩] ++ [⟨.release .redis conn, ()⟩] ++ [⟨.write (.ofError err), ()⟩])
      (.ret true)
  | changed : SubmitForm libs body src email uid newPasswd code → code ≠ "" →
      Runs (mgr.changePasswdWhenUserForgetPasswd email uid newPasswd) tr (.ret 1) →
      doc.Succeeds → SubmitRun libs mgr body
      ([⟨.acquire .redis, some conn⟩, ⟨.redisGet conn ("code_" ++ email), .ok (some code)⟩] ++
        tr ++ [⟨.push l m, ()⟩] ++ [⟨.release .redis conn, ()⟩] ++ [⟨.write doc, ()⟩])
      (.ret true)
  | unnamed : SubmitForm libs body src email uid newPasswd code → code ≠ "" →
      Runs (mgr.changePasswdWhenUserForgetPasswd email uid newPasswd) tr (.ret result) →
      changeError result = none → result ≠ 1 → SubmitRun libs mgr body
      ([⟨.acquire .redis, some conn⟩, ⟨.redisGet conn ("code_" ++ email), .ok (some code)⟩] ++ tr)
      (.undef .offEnd)

theorem submitForgetPasswd_ok :
    Spec .any [] (submitForgetPasswd libs mgr body) (SubmitRun libs mgr body) := by
  unfold submitForgetPasswd
  cases hp : libs.parse body with
  | none => exact .call fun _ => .call fun _ => .badJson hp
  | some src =>
  simp only [text, field]
  cases he : src.text "email" with
  | error w => exact .unreadable hp (by simp) he
  | ok email =>
  cases hu : src.text "uid" with
  | error w => exact .unreadable hp (by simp) hu
  | ok uid =>
  cases hn : src.text "new_passwd" with
  | error w => exact .unreadable hp (by simp) hn
  | ok newPasswd =>
  cases hv : src.text "varify_code" with
  | error w => exact .unreadable hp (by simp) hv
  | ok given =>
  have form : SubmitForm libs body src email uid newPasswd given := ⟨hp, he, hu, hn, hv⟩
  simp only [Prog.ofExcept_ok, pure_bind]
  apply lookupCode_ok.bind
  intro tr e hlook
  cases hlook with
  | noConn => exact .noConn form
  | getThrew => exact .getThrew form
  | absent => exact .absent form
  | @found conn code =>
  simp only [andThen]
  by_cases hcode : code = ""
  · subst hcode
    rw [if_pos rfl]
    exact .call fun _ => .call fun _ => .call fun _ => .expired form
  rw [if_neg hcode]
  by_cases hg : code ≠ given
  · rw [if_pos hg]
    exact .call fun _ => .call fun _ => .call fun _ => .mismatch form hcode hg
  rw [if_neg hg]
  obtain rfl : code = given := not_not.mp hg
  apply (spec_run _).bind
  rintro _ e ⟨tr, rfl, hrun⟩
  cases e with
  | threw w => exact .changeThrew form hcode hrun
  | undef u => exact .changeFault form hcode hrun
  | ret result =>
  obtain ⟨email', hemail⟩ := Json.Value.get_of_text he
  obtain ⟨uid', huid⟩ := Json.Value.get_of_text hu
  simp only [andThen, hemail, huid, Prog.ofExcept_ok, pure_bind]
  have hdoc : (((Json.Object.ofError .success).set "email" email').set "uid" uid').Succeeds := by
    simp [Json.Object.Succeeds, Json.Object.error_set_ne]
  by_cases h2 : result = -2
  · subst h2
    exact .call fun _ => .call fun _ => .call fun _ => .refused form hcode hrun rfl
  rw [if_neg h2]
  by_cases h1 : result = -1
  · subst h1
    exact .call fun _ => .call fun _ => .call fun _ => .refused form hcode hrun rfl
  rw [if_neg h1]
  by_cases h3 : result = -3
  · subst h3
    exact .call fun _ => .call fun _ => .call fun _ => .refused form hcode hrun rfl
  rw [if_neg h3]
  by_cases hok : result = 1
  · subst hok
    exact .call fun _ => .call fun _ => .call fun _ => .changed form hcode hrun hdoc
  rw [if_neg hok]
  refine .unnamed form hcode hrun ?_ hok
  unfold changeError
  split <;> first | contradiction | rfl

-- ---------------------------------------------------------------------------
-- Logging in
-- ---------------------------------------------------------------------------

structure LoginForm (libs : Libs) (body : String) (email pwd : String) (isEmail : Int)
    (user : UserInfo) : Prop where
  src : ∃ src name, libs.parse body = some src ∧ src.text "email" = .ok email ∧
    src.text "user" = .ok name ∧ src.text "passwd" = .ok pwd ∧
    src.get "is_email" >>= Json.Value.asInt = .ok isEmail ∧
    (isEmail = 0 → ∃ uid, src.text "uid" = .ok uid ∧ user.uid = toUInt64 (atoi uid))
  byEmail : isEmail ≠ 0 → user.uid = 0
  email : user.email = email
  passwd : user.passwd = pwd

theorem LoginForm.parsed (form : LoginForm libs body mail pwd isEmail user) :
    (libs.parse body).isSome := by
  obtain ⟨src, name, hp, -⟩ := form.src
  simp [hp]

def LoginReadable (libs : Libs) (body : String) : Prop :=
  ∃ src email name pwd isEmail, libs.parse body = some src ∧ src.text "email" = .ok email ∧
    src.text "user" = .ok name ∧ src.text "passwd" = .ok pwd ∧
    src.get "is_email" >>= Json.Value.asInt = .ok isEmail ∧
    (isEmail = 0 → ∃ uid, src.text "uid" = .ok uid)

theorem loginForm_readable (form : LoginForm libs body mail pwd isEmail user) :
    LoginReadable libs body := by
  obtain ⟨src, name, hp, he, hn, hw, hm, hu⟩ := form.src
  refine ⟨src, mail, name, pwd, isEmail, hp, he, hn, hw, hm, fun h => ?_⟩
  obtain ⟨uid, huid, -⟩ := hu h
  exact ⟨uid, huid⟩

def TurnedDown (doc : Json.Object) : Prop := doc.Fails ∧ doc.member "token" = none

def LoggedIn (doc : Json.Object) (uid : Nat) (token : String) : Prop :=
  doc.Succeeds ∧ doc.member "uid" = some (.integer uid) ∧
    doc.member "token" = some (.string token)

inductive UserLoginRun (libs : Libs) (mgr : MySqlMgr) (body : String) :
    Trace → Exit Bool → Prop
  | badJson : libs.parse body = none → UserLoginRun libs mgr body
      [⟨.push l m, ()⟩, ⟨.write (.ofError .errorJosn), ()⟩] (.ret true)
  | unreadable : ¬ LoginReadable libs body → UserLoginRun libs mgr body [] (.threw w)
  | loginThrew : LoginForm libs body email pwd isEmail user →
      Runs (mgr.loginUser pwd user isEmail) tr (.threw w) →
      UserLoginRun libs mgr body tr (.threw w)
  | loginFault : LoginForm libs body email pwd isEmail user →
      Runs (mgr.loginUser pwd user isEmail) tr (.undef u) →
      UserLoginRun libs mgr body tr (.undef u)
  | rejected : LoginForm libs body email pwd isEmail user →
      Runs (mgr.loginUser pwd user isEmail) tr (.ret (result, user')) →
      result = ErrorCodes.mySqlError ∨ result = -1 ∨ result = -2 → TurnedDown doc →
      UserLoginRun libs mgr body (tr ++ [⟨.push l m, ()⟩] ++ [⟨.write doc, ()⟩]) (.ret true)
  | noStub : LoginForm libs body email pwd isEmail user →
      Runs (mgr.loginUser pwd user isEmail) tr (.ret (result, user')) →
      result ≠ ErrorCodes.mySqlError → result ≠ -1 → result ≠ -2 →
      UserLoginRun libs mgr body (tr ++ [⟨.acquire .status, none⟩]) (.undef .nullPointer)
  | rpcFailed : LoginForm libs body email pwd isEmail user →
      Runs (mgr.loginUser pwd user isEmail) tr (.ret (result, user')) →
      result ≠ ErrorCodes.mySqlError → result ≠ -1 → result ≠ -2 →
      status.ok = false → TurnedDown doc →
      UserLoginRun libs mgr body (tr ++ [⟨.acquire .status, some stub⟩] ++
        [⟨.getChatServer stub (toInt32 user'.uid), (status, respon)⟩] ++
        [⟨.release .status stub, ()⟩] ++ [⟨.write doc, ()⟩] ++ [⟨.push l m, ()⟩]) (.ret true)
  | idThrew : LoginForm libs body email pwd isEmail user →
      Runs (mgr.loginUser pwd user isEmail) tr (.ret (result, user')) →
      result ≠ ErrorCodes.mySqlError → result ≠ -1 → result ≠ -2 →
      status.ok = true → Runs (mgr.getUserId email) tr' (.threw w) →
      UserLoginRun libs mgr body (tr ++ [⟨.acquire .status, some stub⟩] ++
        [⟨.getChatServer stub (toInt32 user'.uid), (status, respon)⟩] ++ tr') (.threw w)
  | idFault : LoginForm libs body email pwd isEmail user →
      Runs (mgr.loginUser pwd user isEmail) tr (.ret (result, user')) →
      result ≠ ErrorCodes.mySqlError → result ≠ -1 → result ≠ -2 →
      status.ok = true → Runs (mgr.getUserId email) tr' (.undef u) →
      UserLoginRun libs mgr body (tr ++ [⟨.acquire .status, some stub⟩] ++
        [⟨.getChatServer stub (toInt32 user'.uid), (status, respon)⟩] ++ tr') (.undef u)
  | loggedIn : LoginForm libs body email pwd isEmail user →
      Runs (mgr.loginUser pwd user isEmail) tr (.ret (result, user')) →
      result ≠ ErrorCodes.mySqlError → result ≠ -1 → result ≠ -2 →
      status.ok = true → Runs (mgr.getUserId email) tr' (.ret uid) →
      LoggedIn doc uid respon.token →
      UserLoginRun libs mgr body (tr ++ [⟨.acquire .status, some stub⟩] ++
        [⟨.getChatServer stub (toInt32 user'.uid), (status, respon)⟩] ++ tr' ++
        [⟨.release .status stub, ()⟩] ++ [⟨.write doc, ()⟩] ++ [⟨.push l m, ()⟩]) (.ret true)

theorem loginUser_ok (form : LoginForm libs body email pwd isEmail user) :
    Spec .any [] (loginUser mgr email name pwd isEmail user) (UserLoginRun libs mgr body) := by
  unfold loginUser
  apply (spec_run _).bind
  rintro _ e ⟨tr, rfl, hrun⟩
  simp only
  rcases e with ⟨result, user'⟩ | w | u
  · simp only [andThen]
    by_cases hm : result = ErrorCodes.mySqlError
    · rw [if_pos hm]
      exact .call fun _ => .call fun _ =>
        .rejected form hrun (.inl hm) ⟨Json.Object.fails_ofError (by simp), rfl⟩
    rw [if_neg hm]
    by_cases h1 : result = -1
    · rw [if_pos h1]
      exact .call fun _ => .call fun _ => .rejected form hrun (.inr (.inl h1))
        ⟨(Json.Object.fails_ofError (by simp)).set _ (by simp), rfl⟩
    rw [if_neg h1]
    by_cases h2 : result = -2
    · rw [if_pos h2]
      exact .call fun _ => .call fun _ => .rejected form hrun (.inr (.inr h2))
        ⟨(Json.Object.fails_ofError (by simp)).set _ (by simp), rfl⟩
    rw [if_neg h2]
    refine .ask fun stub => ?_
    cases stub with
    | none => exact .noStub form hrun hm h1 h2
    | some stub =>
    simp only [Prog.ofOption_some, pure_bind]
    refine .ask fun rsp => ?_
    obtain ⟨status, respon⟩ := rsp
    cases hok : status.ok with
    | false =>
      simp only [Bool.false_eq_true, if_false]
      exact .call fun _ => .call fun _ => .call fun _ =>
        .rpcFailed form hrun hm h1 h2 hok
          ⟨(Json.Object.fails_ofError (by simp)).set _ (by simp), rfl⟩
    | true =>
    simp only [if_true]
    apply (spec_run _).bind
    rintro _ e ⟨tr', rfl, hrun'⟩
    cases e with
    | threw w => exact .idThrew form hrun hm h1 h2 hok hrun'
    | undef u => exact .idFault form hrun hm h1 h2 hok hrun'
    | ret uid =>
      refine .call fun _ => .call fun _ => .call fun _ =>
        .loggedIn form hrun hm h1 h2 hok hrun' ⟨?_, ?_, ?_⟩
      · simp [Json.Object.Succeeds, Json.Object.error_set_ne]
      · simp [Json.Object.member_set_ne]
      · simp [Json.Object.member_set_ne]
  · exact .loginThrew form hrun
  · exact .loginFault form hrun

theorem userLogin_ok : Spec .any [] (userLogin libs mgr body) (UserLoginRun libs mgr body) := by
  unfold userLogin
  cases hp : libs.parse body with
  | none => exact .call fun _ => .call fun _ => .badJson hp
  | some src =>
  simp only [text, number]
  cases he : src.text "email" with
  | error w =>
    refine .unreadable ?_
    rintro ⟨src', _, _, _, _, hp', he', -⟩
    cases hp.symm.trans hp'
    cases he.symm.trans he'
  | ok email =>
  cases hn : src.text "user" with
  | error w =>
    refine .unreadable ?_
    rintro ⟨src', _, _, _, _, hp', -, hn', -⟩
    cases hp.symm.trans hp'
    cases hn.symm.trans hn'
  | ok name =>
  cases hw : src.text "passwd" with
  | error w =>
    refine .unreadable ?_
    rintro ⟨src', _, _, _, _, hp', -, -, hw', -⟩
    cases hp.symm.trans hp'
    cases hw.symm.trans hw'
  | ok pwd =>
  cases hm : src.get "is_email" >>= Json.Value.asInt with
  | error w =>
    refine .unreadable ?_
    rintro ⟨src', _, _, _, _, hp', -, -, -, hm', -⟩
    cases hp.symm.trans hp'
    cases hm.symm.trans hm'
  | ok isEmail =>
  simp only [Prog.ofExcept_ok, pure_bind]
  by_cases h0 : isEmail = 0
  · rw [if_pos h0]
    cases hu : src.text "uid" with
    | error w =>
      refine .unreadable ?_
      rintro ⟨src', _, _, _, _, hp', -, -, -, hm', hu'⟩
      cases hp.symm.trans hp'
      cases hm.symm.trans hm'
      obtain ⟨uid, huid⟩ := hu' h0
      cases hu.symm.trans huid
    | ok uid =>
    exact loginUser_ok ⟨⟨src, name, hp, he, hn, hw, hm, fun _ => ⟨uid, hu, rfl⟩⟩,
      fun h => absurd h0 h, rfl, rfl⟩
  · rw [if_neg h0]
    exact loginUser_ok ⟨⟨src, name, hp, he, hn, hw, hm, fun h => absurd h h0⟩,
      fun _ => rfl, rfl, rfl⟩

-- ---------------------------------------------------------------------------
-- Verification codes
-- ---------------------------------------------------------------------------

inductive CodeRun (libs : Libs) (body : String) : Trace → Exit Bool → Prop
  | refused : CodeRun libs body
      [⟨.push l m, ()⟩, ⟨.write (.ofError .errorJosn), ()⟩] (.ret true)
  | unreadable : (libs.parse body).isSome → CodeRun libs body [] (.threw w)
  | answered : (libs.parse body).isSome → VarifyRun email tr rsp →
      doc.error = some rsp.error → CodeRun libs body
      ([⟨.push l m, ()⟩] ++ tr ++ [⟨.push l' m', ()⟩] ++ [⟨.write doc, ()⟩]) (.ret true)

inductive CodeExit (libs : Libs) (body : String) : Trace → Exit Bool → Prop
  | badJson : libs.parse body = none → CodeExit libs body
      [⟨.push l m, ()⟩, ⟨.write (.ofError .errorJosn), ()⟩] (.ret true)
  | noObject : libs.parse body = some src → src.isMember "email" = .error w →
      CodeExit libs body [] (.threw w)
  | missing : libs.parse body = some src → src.isMember "email" = .ok false → CodeExit libs body
      [⟨.push l m, ()⟩, ⟨.write (.ofError .errorJosn), ()⟩] (.ret true)
  | unreadable : libs.parse body = some src → src.isMember "email" = .ok true →
      src.text "email" = .error w → CodeExit libs body [] (.threw w)
  | answered : libs.parse body = some src → src.isMember "email" = .ok true →
      src.text "email" = .ok email → VarifyRun email tr rsp → doc.error = some rsp.error →
      CodeExit libs body
      ([⟨.push l m, ()⟩] ++ tr ++ [⟨.push l' m', ()⟩] ++ [⟨.write doc, ()⟩]) (.ret true)

theorem parse_isSome (hp : libs.parse body = some src) : (libs.parse body).isSome := by
  simp [hp]

theorem CodeExit.run (h : CodeExit libs body tr e) : CodeRun libs body tr e := by
  cases h with
  | badJson => exact .refused
  | noObject hp => exact .unreadable (parse_isSome hp)
  | missing => exact .refused
  | unreadable hp => exact .unreadable (parse_isSome hp)
  | answered hp _ _ hrsp hdoc => exact .answered (parse_isSome hp) hrsp hdoc

theorem getVarifyCode_exits : Spec .any [] (getVarifyCode libs body) (CodeExit libs body) := by
  unfold getVarifyCode
  cases hp : libs.parse body with
  | none => exact .call fun _ => .call fun _ => .badJson hp
  | some src =>
  simp only [text, field]
  cases hm : src.isMember "email" with
  | error w => exact .noObject hp hm
  | ok present =>
  cases present with
  | false => exact .call fun _ => .call fun _ => .missing hp hm
  | true =>
  cases he : src.text "email" with
  | error w => exact .unreadable hp hm he
  | ok email =>
  obtain ⟨email', hemail⟩ := Json.Value.get_of_text he
  simp only [Prog.ofExcept_ok, pure_bind, hemail, Bool.not_true, Bool.false_eq_true, if_false]
  refine .ask fun _ => (spec_run _).bind ?_
  rintro _ e ⟨tr, rfl, hrun⟩
  obtain ⟨rsp, rfl, hrsp⟩ := varifyClient_runs hrun
  have hdoc : ((Json.Object.set [] "error" (.integer rsp.error)).set "email" email').error =
      some rsp.error := by
    simp [Json.Object.error_set_ne]
  by_cases h0 : rsp.error = ErrorCodes.success
  · simp only [andThen, h0, if_true]
    exact .call fun _ => .call fun _ => .answered hp hm he hrsp (h0 ▸ hdoc)
  · simp only [andThen, h0, if_false]
    exact .call fun _ => .call fun _ => .answered hp hm he hrsp hdoc

theorem getVarifyCode_ok : Spec .any [] (getVarifyCode libs body) (CodeRun libs body) :=
  getVarifyCode_exits.mono fun _ _ => CodeExit.run

inductive ForgetRun (libs : Libs) (mgr : MySqlMgr) (body : String) :
    Trace → Exit Bool → Prop
  | badJson : ForgetRun libs mgr body
      [⟨.push l m, ()⟩, ⟨.write (.ofError .errorJosn), ()⟩] (.ret true)
  | unreadable : (libs.parse body).isSome → ForgetRun libs mgr body [] (.threw w)
  | existsThrew : (libs.parse body).isSome → Runs (mgr.existsUser email uid) tr (.threw w) →
      ForgetRun libs mgr body tr (.threw w)
  | existsFault : (libs.parse body).isSome → Runs (mgr.existsUser email uid) tr (.undef u) →
      ForgetRun libs mgr body tr (.undef u)
  | unknown : (libs.parse body).isSome → Runs (mgr.existsUser email uid) tr (.ret false) →
      ForgetRun libs mgr body
      (tr ++ [⟨.push l m, ()⟩] ++ [⟨.write (.ofError .userNotExist), ()⟩]) (.ret true)
  | answered : (libs.parse body).isSome → Runs (mgr.existsUser email uid) tr (.ret true) →
      VarifyRun email tr' rsp → doc.error = some rsp.error → ForgetRun libs mgr body
      (tr ++ [⟨.push l m, ()⟩] ++ tr' ++ [⟨.push l' m', ()⟩] ++ [⟨.write doc, ()⟩])
      (.ret true)

structure ForgetForm (libs : Libs) (body : String) (src : Json.Value) (email uid : String) :
    Prop where
  parse : libs.parse body = some src
  email : src.text "email" = .ok email
  uid : src.text "uid" = .ok uid

inductive ForgetExit (libs : Libs) (mgr : MySqlMgr) (body : String) :
    Trace → Exit Bool → Prop
  | badJson : libs.parse body = none → ForgetExit libs mgr body
      [⟨.push l m, ()⟩, ⟨.write (.ofError .errorJosn), ()⟩] (.ret true)
  | unreadable : libs.parse body = some src → key ∈ ["email", "uid"] → src.text key = .error w →
      ForgetExit libs mgr body [] (.threw w)
  | existsThrew : ForgetForm libs body src email uid →
      Runs (mgr.existsUser email uid) tr (.threw w) → ForgetExit libs mgr body tr (.threw w)
  | existsFault : ForgetForm libs body src email uid →
      Runs (mgr.existsUser email uid) tr (.undef u) → ForgetExit libs mgr body tr (.undef u)
  | unknown : ForgetForm libs body src email uid →
      Runs (mgr.existsUser email uid) tr (.ret false) → ForgetExit libs mgr body
      (tr ++ [⟨.push l m, ()⟩] ++ [⟨.write (.ofError .userNotExist), ()⟩]) (.ret true)
  | answered : ForgetForm libs body src email uid →
      Runs (mgr.existsUser email uid) tr (.ret true) → VarifyRun email tr' rsp →
      doc.error = some rsp.error → ForgetExit libs mgr body
      (tr ++ [⟨.push l m, ()⟩] ++ tr' ++ [⟨.push l' m', ()⟩] ++ [⟨.write doc, ()⟩])
      (.ret true)

theorem ForgetExit.run (h : ForgetExit libs mgr body tr e) : ForgetRun libs mgr body tr e := by
  cases h with
  | badJson => exact .badJson
  | unreadable hp => exact .unreadable (parse_isSome hp)
  | existsThrew form hrun => exact .existsThrew (parse_isSome form.parse) hrun
  | existsFault form hrun => exact .existsFault (parse_isSome form.parse) hrun
  | unknown form hrun => exact .unknown (parse_isSome form.parse) hrun
  | answered form hrun hrsp hdoc => exact .answered (parse_isSome form.parse) hrun hrsp hdoc

theorem getVarifyCodeForgetPasswd_exits :
    Spec .any [] (getVarifyCodeForgetPasswd libs mgr body) (ForgetExit libs mgr body) := by
  unfold getVarifyCodeForgetPasswd
  cases hp : libs.parse body with
  | none => exact .call fun _ => .call fun _ => .badJson hp
  | some src =>
  simp only [text, field]
  cases he : src.text "email" with
  | error w => exact .unreadable hp (.head _) he
  | ok email =>
  cases hu : src.text "uid" with
  | error w => exact .unreadable hp (.tail _ (.head _)) hu
  | ok uid =>
  have form : ForgetForm libs body src email uid := ⟨hp, he, hu⟩
  obtain ⟨email', hemail⟩ := Json.Value.get_of_text he
  obtain ⟨uid', huid⟩ := Json.Value.get_of_text hu
  simp only [Prog.ofExcept_ok, pure_bind, hemail, huid]
  apply (spec_run _).bind
  rintro _ e ⟨tr, rfl, hrun⟩
  rcases e with found | w | u
  · simp only [andThen]
    cases found with
    | false =>
      simp only [Bool.not_false, if_true]
      exact .call fun _ => .call fun _ => .unknown form hrun
    | true =>
    simp only [Bool.not_true, Bool.false_eq_true, if_false]
    refine .ask fun _ => (spec_run _).bind ?_
    rintro _ e ⟨tr', rfl, hrun'⟩
    obtain ⟨rsp, rfl, hrsp⟩ := varifyClient_runs hrun'
    by_cases h0 : rsp.error = ErrorCodes.success
    · have hdoc : (((Json.Object.ofError .success).set "email" email').set "uid" uid').error =
          some rsp.error := by
        simp [Json.Object.error_set_ne, h0]
      simp only [andThen, h0, if_true]
      exact .call fun _ => .call fun _ => .answered form hrun hrsp hdoc
    · simp only [andThen, h0, if_false]
      exact .call fun _ => .call fun _ => .answered form hrun hrsp (Json.Object.error_set_self _ _)
  · exact .existsThrew form hrun
  · exact .existsFault form hrun

theorem getVarifyCodeForgetPasswd_ok :
    Spec .any [] (getVarifyCodeForgetPasswd libs mgr body) (ForgetRun libs mgr body) :=
  getVarifyCodeForgetPasswd_exits.mono fun _ _ => ForgetExit.run

-- ---------------------------------------------------------------------------
-- Icons
-- ---------------------------------------------------------------------------

def IdStage (mgr : MySqlMgr) (tr : Trace) : Prop :=
  tr = [] ∨ ∃ email uid, Runs (mgr.getUserId email) tr (.ret uid)

inductive UserIconRun (libs : Libs) (mgr : MySqlMgr) (body : String) :
    Trace → Exit Bool → Prop
  | badJson : libs.parse body = none → UserIconRun libs mgr body [] (.ret true)
  | unreadable : (libs.parse body).isSome → UserIconRun libs mgr body [] (.threw w)
  | idThrew : (libs.parse body).isSome → Runs (mgr.getUserId email) tr (.threw w) →
      UserIconRun libs mgr body tr (.threw w)
  | idFault : (libs.parse body).isSome → Runs (mgr.getUserId email) tr (.undef u) →
      UserIconRun libs mgr body tr (.undef u)
  | iconThrew : (libs.parse body).isSome → IdStage mgr tr →
      Runs (mgr.getUserIcon uid) tr' (.threw w) → UserIconRun libs mgr body (tr ++ tr') (.threw w)
  | iconFault : (libs.parse body).isSome → IdStage mgr tr →
      Runs (mgr.getUserIcon uid) tr' (.undef u) → UserIconRun libs mgr body (tr ++ tr') (.undef u)
  | answered : (libs.parse body).isSome → IdStage mgr tr →
      Runs (mgr.getUserIcon uid) tr' (.ret data) → doc.error = some n →
      UserIconRun libs mgr body (tr ++ tr' ++ [⟨.write doc, ()⟩]) (.undef .offEnd)

structure IconForm (libs : Libs) (body : String) (src : Json.Value) (isEmail : Int) : Prop where
  parse : libs.parse body = some src
  isEmail : src.get "is_email" >>= Json.Value.asInt = .ok isEmail

inductive IconId (libs : Libs) (mgr : MySqlMgr) (body : String) : Trace → Nat → Prop
  | byEmail : IconForm libs body src isEmail → isEmail ≠ 0 → src.text "email" = .ok email →
      Runs (mgr.getUserId email) tr (.ret userId) → IconId libs mgr body tr userId
  | byUid : IconForm libs body src 0 → src.text "uid" = .ok uidStr →
      IconId libs mgr body [] (toUInt64 (atoi uidStr))

inductive UserIconExit (libs : Libs) (mgr : MySqlMgr) (body : String) :
    Trace → Exit Bool → Prop
  | badJson : libs.parse body = none → UserIconExit libs mgr body [] (.ret true)
  | noNumber : libs.parse body = some src → src.get "is_email" >>= Json.Value.asInt = .error w →
      UserIconExit libs mgr body [] (.threw w)
  | unreadable : IconForm libs body src isEmail →
      src.text (if isEmail ≠ 0 then "email" else "uid") = .error w →
      UserIconExit libs mgr body [] (.threw w)
  | idThrew : IconForm libs body src isEmail → isEmail ≠ 0 → src.text "email" = .ok email →
      Runs (mgr.getUserId email) tr (.threw w) → UserIconExit libs mgr body tr (.threw w)
  | idFault : IconForm libs body src isEmail → isEmail ≠ 0 → src.text "email" = .ok email →
      Runs (mgr.getUserId email) tr (.undef u) → UserIconExit libs mgr body tr (.undef u)
  | iconThrew : IconId libs mgr body tr userId →
      Runs (mgr.getUserIcon (toInt32 userId)) tr' (.threw w) →
      UserIconExit libs mgr body (tr ++ tr') (.threw w)
  | iconFault : IconId libs mgr body tr userId →
      Runs (mgr.getUserIcon (toInt32 userId)) tr' (.undef u) →
      UserIconExit libs mgr body (tr ++ tr') (.undef u)
  | answered : IconId libs mgr body tr userId →
      Runs (mgr.getUserIcon (toInt32 userId)) tr' (.ret data) → doc.error = some n →
      UserIconExit libs mgr body (tr ++ tr' ++ [⟨.write doc, ()⟩]) (.undef .offEnd)

theorem IconId.stage (h : IconId libs mgr body tr userId) :
    (libs.parse body).isSome ∧ IdStage mgr tr := by
  cases h with
  | byEmail form _ _ hrun => exact ⟨parse_isSome form.parse, .inr ⟨_, _, hrun⟩⟩
  | byUid form => exact ⟨parse_isSome form.parse, .inl rfl⟩

theorem UserIconExit.run (h : UserIconExit libs mgr body tr e) :
    UserIconRun libs mgr body tr e := by
  cases h with
  | badJson hp => exact .badJson hp
  | noNumber hp => exact .unreadable (parse_isSome hp)
  | unreadable form => exact .unreadable (parse_isSome form.parse)
  | idThrew form _ _ hrun => exact .idThrew (parse_isSome form.parse) hrun
  | idFault form _ _ hrun => exact .idFault (parse_isSome form.parse) hrun
  | iconThrew hid hrun => exact .iconThrew hid.stage.1 hid.stage.2 hrun
  | iconFault hid hrun => exact .iconFault hid.stage.1 hid.stage.2 hrun
  | answered hid hrun hdoc => exact .answered hid.stage.1 hid.stage.2 hrun hdoc

theorem replyIcon_exits (hid : IconId libs mgr body tr userId) :
    Spec .any tr (replyIcon libs mgr root userId) (UserIconExit libs mgr body) := by
  unfold replyIcon
  apply (spec_run _).bind
  rintro _ e ⟨tr', rfl, hrun⟩
  rcases e with data | w | u
  · simp only [andThen]
    by_cases hd : data ≠ ""
    · rw [if_pos hd]
      exact .call fun _ => .answered hid hrun
        ((Json.Object.error_set_ne _ _ (by simp)).trans (Json.Object.error_set_self _ _))
    · rw [if_neg hd]
      exact .call fun _ => .answered hid hrun
        ((Json.Object.error_set_ne _ _ (by simp)).trans (Json.Object.error_set_self _ _))
  · exact .iconThrew hid hrun
  · exact .iconFault hid hrun

theorem getUserIcon_exits :
    Spec .any [] (getUserIcon libs mgr body) (UserIconExit libs mgr body) := by
  unfold getUserIcon
  cases hp : libs.parse body with
  | none => exact .badJson hp
  | some src =>
  simp only [text, number]
  cases hm : src.get "is_email" >>= Json.Value.asInt with
  | error w => exact .noNumber hp hm
  | ok isEmail =>
  have form : IconForm libs body src isEmail := ⟨hp, hm⟩
  simp only [Prog.ofExcept_ok, pure_bind]
  by_cases h0 : isEmail ≠ 0
  · rw [if_pos h0]
    cases he : src.text "email" with
    | error w => exact .unreadable form (by rw [if_pos h0, he])
    | ok email =>
    simp only [Prog.ofExcept_ok, pure_bind]
    apply (spec_run _).bind
    rintro _ e ⟨tr, rfl, hrun⟩
    rcases e with uid | w | u
    · exact replyIcon_exits (.byEmail form h0 he hrun)
    · exact .idThrew form h0 he hrun
    · exact .idFault form h0 he hrun
  · rw [if_neg h0]
    cases hu : src.text "uid" with
    | error w => exact .unreadable form (by rw [if_neg h0, hu])
    | ok uid =>
      obtain rfl := not_not.mp h0
      exact replyIcon_exits (.byUid form hu)

theorem getUserIcon_ok : Spec .any [] (getUserIcon libs mgr body) (UserIconRun libs mgr body) :=
  getUserIcon_exits.mono fun _ _ => UserIconExit.run

end GateServer.LogicalSystem
