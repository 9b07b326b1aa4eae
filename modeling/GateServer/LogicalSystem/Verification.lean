import GateServer.LogicalSystem.Connections
import GateServer.MySqlDao.Exits

/-!
# Verification codes

A request to one of the two routes reaches the database only after Redis has
answered the lookup of its email's code with the code it carries.
-/

namespace GateServer

open Interact Gateway

-- ---------------------------------------------------------------------------
-- Nothing happens to an account without the code
-- ---------------------------------------------------------------------------

@[simp] def Op.OnMySql : Op → Prop
  | .acquire .mySql | .release .mySql _ | .execute .. | .store .. | .dao _ => True
  | _ => False

def Query.account? : Query → Option String
  | .regUser _ _ email | .changePasswd email _ _ => some email
  | _ => none

namespace LogicalSystem

/-- Redis has answered the lookup of the email's code with the code of the request. -/
def Verified (libs : Libs) (r : CodeRequest) (h : Trace) (email : String) : Prop :=
  ∃ src conn code, libs.parse r.body = some src ∧ src.text "email" = .ok email ∧
    src.text "varify_code" = .ok code ∧ code ≠ "" ∧
    (⟨.redisGet conn ("code_" ++ email), .ok (some code)⟩ : Ev) ∈ h

theorem Verified.mono (hv : Verified libs r h email) (hsub : h ⊆ h') :
    Verified libs r h' email := by
  obtain ⟨src, conn, code, hp, he, hc, hne, hmem⟩ := hv
  exact ⟨src, conn, code, hp, he, hc, hne, hsub hmem⟩

/-- The database is accessed only after verification, and only about the verified email. -/
def Authorised (libs : Libs) (r : CodeRequest) (h : Trace) (op : Op) : Prop :=
  op.OnMySql → ∃ email, Verified libs r h email ∧
    ∀ conn query, op = .execute conn query → query.account? = some email

theorem callRun_authorised (hr : MysqlDao.CallRun noConn call select tr result)
    (hv : Verified libs r h email) (hq : call.account? = some email) :
    Guarded (Authorised libs r) h tr := by
  refine guarded_of_forall fun ev hev h' hop => ⟨email, hv.mono (List.subset_append_left ..), ?_⟩
  intro conn query heq
  rw [MysqlDao.callRun_executes hr ev hev conn query heq, hq]

theorem authorised_free (h : ∀ ev ∈ tr, ¬ Op.OnMySql ev.op) : Guarded (Authorised libs r) h₀ tr :=
  guarded_of_forall fun ev hev _ hop => absurd hop (h ev hev)

theorem authorised_snoc (hg : Guarded (Authorised libs r) [] tr) (h : ¬ Op.OnMySql ev.op) :
    Guarded (Authorised libs r) [] (tr ++ [ev]) :=
  guarded_append.mpr ⟨hg, authorised_free (by simpa using h)⟩

theorem authorised_call (hfree : ∀ ev ∈ tr, ¬ Op.OnMySql ev.op) (hv : Verified libs r tr email)
    (hr : MysqlDao.CallRun noConn call select tr' result) (hq : call.account? = some email) :
    Guarded (Authorised libs r) [] (tr ++ tr') :=
  guarded_append.mpr ⟨authorised_free hfree, callRun_authorised hr hv hq⟩

theorem userRegister_authorised (hr : Runs (userRegister libs (.ofDao libs) body) tr e) :
    Guarded (Authorised libs (.userRegister body)) [] tr := by
  have hcall : ∀ {src email name pwd code conn tr e},
      RegisterForm libs body src email name pwd → code ≠ "" →
      src.text "varify_code" = .ok code → Runs (MysqlDao.regUser name email pwd) tr e →
      Guarded (Authorised libs (.userRegister body)) []
        ([⟨.acquire .redis, some conn⟩, ⟨.redisGet conn ("code_" ++ email), .ok (some code)⟩,
          ⟨.redisExists conn (email ++ "_usr"), .ok false⟩] ++ tr) := by
    intro src email name pwd code conn tr e form hcode hv hrun
    obtain ⟨r, -, hr⟩ := MysqlDao.regUser_runs hrun
    refine authorised_call (by simp) ?_ hr rfl
    exact ⟨src, conn, code, form.parse, form.email, hv, hcode, by simp⟩
  cases userRegister_ok.ends hr with
  | badJson => exact authorised_free (by simp)
  | unreadable => exact authorised_free (by simp)
  | noConn => exact authorised_free (by simp)
  | getThrew => exact authorised_free (by simp)
  | absent => exact authorised_free (by simp)
  | expired => exact authorised_free (by simp)
  | codeUnreadable => exact authorised_free (by simp)
  | mismatch => exact authorised_free (by simp)
  | existsThrew => exact authorised_free (by simp)
  | exist => exact authorised_free (by simp)
  | regThrew form hcode hv hrun => exact hcall form hcode hv hrun
  | regFault form hcode hv hrun => exact hcall form hcode hv hrun
  | refused form hcode hv hrun =>
    exact authorised_snoc (authorised_snoc (hcall form hcode hv hrun) id) id
  | twice form hcode hv hrun =>
    exact authorised_snoc (authorised_snoc (authorised_snoc (authorised_snoc
      (hcall form hcode hv hrun) id) id) id) id
  | registered form hcode hv hrun =>
    exact authorised_snoc (authorised_snoc (hcall form hcode hv hrun) id) id

theorem submitForgetPasswd_authorised
    (hr : Runs (submitForgetPasswd libs (.ofDao libs) body) tr e) :
    Guarded (Authorised libs (.submitForgetPasswd body)) [] tr := by
  have hcall : ∀ {src email uid newPasswd code conn tr e},
      SubmitForm libs body src email uid newPasswd code → code ≠ "" →
      Runs (MysqlDao.changePasswdWhenUserForgetPasswd email uid newPasswd) tr e →
      Guarded (Authorised libs (.submitForgetPasswd body)) []
        ([⟨.acquire .redis, some conn⟩, ⟨.redisGet conn ("code_" ++ email), .ok (some code)⟩] ++
          tr) := by
    intro src email uid newPasswd code conn tr e form hcode hrun
    obtain ⟨r, -, hr⟩ := MysqlDao.changePasswd_runs hrun
    refine authorised_call (by simp) ?_ hr rfl
    exact ⟨src, conn, code, form.parse, form.email, form.varifyCode, hcode, by simp⟩
  cases submitForgetPasswd_ok.ends hr with
  | badJson => exact authorised_free (by simp)
  | unreadable => exact authorised_free (by simp)
  | noConn => exact authorised_free (by simp)
  | getThrew => exact authorised_free (by simp)
  | absent => exact authorised_free (by simp)
  | expired => exact authorised_free (by simp)
  | mismatch => exact authorised_free (by simp)
  | changeThrew form hcode hrun => exact hcall form hcode hrun
  | changeFault form hcode hrun => exact hcall form hcode hrun
  | refused form hcode hrun =>
    exact authorised_snoc (authorised_snoc (authorised_snoc (hcall form hcode hrun) id) id) id
  | changed form hcode hrun =>
    exact authorised_snoc (authorised_snoc (authorised_snoc (hcall form hcode hrun) id) id) id
  | unnamed form hcode hrun => exact hcall form hcode hrun

theorem CodeRequest.authorised (r : CodeRequest) :
    Spec ⟨fun _ => True, Authorised libs r⟩ [] (r.handle libs (.ofDao libs)) fun _ _ => True := by
  refine Spec.of_runs (fun op => ⟨op.answer, trivial⟩) fun tr e hrun _ => ⟨?_, trivial⟩
  cases r with
  | userRegister body => exact userRegister_authorised hrun
  | submitForgetPasswd body => exact submitForgetPasswd_authorised hrun

/-- In any interleaving, a request accesses the database only after its verification and about
the verified email, and no other step changes an account. -/
theorem accounts_change_only_verified {g : Gateway Accounts} {jobs : List CodeRequest}
    (hr : Reachable (arena Accounts) (.start (CodeRequest.handle libs (.ofDao libs)) g jobs) c)
    (hs : Step (arena Accounts) c who c') :
    (∀ t ev, who = some (t, ev) → Authorised libs t.job t.hist ev.op) ∧
    (c'.world.accounts = c.world.accounts ∨
      ∃ t ev email, who = some (t, ev) ∧ Verified libs t.job t.hist email) := by
  have hauth : ∀ t ev, who = some (t, ev) → Authorised libs t.job t.hist ev.op := by
    rintro t ev rfl
    exact hr.asks CodeRequest.authorised hs fun _ _ => trivial
  refine ⟨hauth, ?_⟩
  cases hs with
  | env hc => exact .inl hc.accounts
  | call hact =>
    rcases hact.accounts with heq | ⟨conn, query, rfl⟩ | ⟨call, rfl⟩
    · exact .inl heq
    · obtain ⟨email, hv, -⟩ := hauth _ _ rfl trivial
      exact .inr ⟨_, _, email, rfl, hv⟩
    · obtain ⟨email, hv, -⟩ := hauth _ _ rfl trivial
      exact .inr ⟨_, _, email, rfl, hv⟩

def verifiedTrace : Trace :=
  [⟨.acquire .redis, some 0⟩, ⟨.redisGet 0 "code_e", .ok (some "c")⟩,
    ⟨.redisExists 0 "e_usr", .ok false⟩, ⟨.acquire .mySql, some 0⟩]

theorem verifiedTrace_plays : Plays (arena Nat) (opened [0]) verifiedTrace
    (((opened [0]).setPool .redis ⟨[], false⟩).setPool .mySql ⟨[], false⟩) := by
  refine .cons (.get RedisPool.Gets.front) (.cons (.quiet trivial) (.cons (.quiet trivial) ?_))
  exact .cons (.get MySqlPool.Gets.front) .nil

theorem accounts_change_only_verified_registering :
    ∃ email, Verified codeLibs (.userRegister codeBody) verifiedTrace email := by
  have hr : ∃ next, Reachable (arena Nat)
      (.start (CodeRequest.handle codeLibs (.ofDao codeLibs)) (opened [0]) [.userRegister codeBody])
      ⟨_, [⟨_, verifiedTrace, .call (.execute 0 (.regUser "" "" "e")) next⟩]⟩ :=
    ⟨_, Reachable.alone (.call _ (.call _ (.call _ (.call _ .refl)))) verifiedTrace_plays⟩
  obtain ⟨next, hr⟩ := hr
  have hact : ∀ g : Gateway Nat,
      (arena Nat).act g ⟨.execute 0 (.regUser "" "" "e"), .ok true⟩ ⟨g.pools, 1⟩ :=
    fun _ => .execute 1
  rcases (accounts_change_only_verified hr (.call (t := []) (u := []) (hact _))).2 with
    h | ⟨t, ev, email, hwho, hv⟩
  · exact absurd (show 1 = 0 from h) (by decide)
  · cases hwho
    exact ⟨email, hv⟩

-- ---------------------------------------------------------------------------
-- The three ways to refuse a code
-- ---------------------------------------------------------------------------

def Answers (redis : String → Option String) (tr : Trace) : Prop :=
  ∀ p ∈ lookups tr, p.2 = redis p.1

def GoesOn (tr : Trace) : Prop :=
  ∃ ev ∈ tr, Op.OnMySql ev.op ∨ ∃ conn key, ev.op = .redisExists conn key

/-- The check of the code: undetermined, or one of four cases. -/
inductive Checked (email given : String) : Trace → Exit Bool → Prop
  | unanswered : lookups tr = [] → ¬ GoesOn tr → e ≠ .undef .emptyOptional →
      Checked email given tr e
  | absent : lookups tr = [("code_" ++ email, none)] →
      Checked email given tr (.undef .emptyOptional)
  | expired : lookups tr = [("code_" ++ email, some "")] → ¬ GoesOn tr →
      replies tr = [.ofError .varifyEXpired] → Checked email given tr (.ret true)
  | mismatch : lookups tr = [("code_" ++ email, some code)] → code ≠ "" → code ≠ given →
      ¬ GoesOn tr → replies tr = [.ofError .varifyError] → Checked email given tr (.ret true)
  | matched : lookups tr = [("code_" ++ email, some given)] → given ≠ "" →
      e ≠ .undef .emptyOptional → Checked email given tr e

theorem registerForm_unique (form : RegisterForm libs body src email name pwd)
    (form' : RegisterForm libs body src' email' name' pwd') :
    src' = src ∧ email' = email ∧ name' = name ∧ pwd' = pwd := by
  obtain rfl := Option.some.inj (form'.parse.symm.trans form.parse)
  exact ⟨rfl, Except.ok.inj (form'.email.symm.trans form.email),
    Except.ok.inj (form'.user.symm.trans form.user),
    Except.ok.inj (form'.passwd.symm.trans form.passwd)⟩

theorem submitForm_unique (form : SubmitForm libs body src email uid newPasswd given)
    (form' : SubmitForm libs body src' email' uid' newPasswd' given') :
    src' = src ∧ email' = email ∧ uid' = uid ∧ newPasswd' = newPasswd ∧ given' = given := by
  obtain rfl := Option.some.inj (form'.parse.symm.trans form.parse)
  exact ⟨rfl, Except.ok.inj (form'.email.symm.trans form.email),
    Except.ok.inj (form'.uid.symm.trans form.uid),
    Except.ok.inj (form'.newPasswd.symm.trans form.newPasswd),
    Except.ok.inj (form'.varifyCode.symm.trans form.varifyCode)⟩

theorem userRegister_checked (hr : Runs (userRegister libs (.ofDao libs) body) tr e)
    (form : RegisterForm libs body src email name pwd) (hv : src.text "varify_code" = .ok given) :
    Checked email given tr e := by
  cases userRegister_ok.ends hr with
  | badJson hp => cases hp.symm.trans form.parse
  | unreadable => exact .unanswered rfl (by simp [GoesOn]) (by simp)
  | noConn => exact .unanswered rfl (by simp [GoesOn]) (by simp)
  | getThrew => exact .unanswered rfl (by simp [GoesOn]) (by simp)
  | absent form' =>
    obtain ⟨rfl, rfl, rfl, rfl⟩ := registerForm_unique form form'
    exact .absent rfl
  | expired form' =>
    obtain ⟨rfl, rfl, rfl, rfl⟩ := registerForm_unique form form'
    exact .expired rfl (by simp [GoesOn]) rfl
  | codeUnreadable form' _ hv' =>
    obtain ⟨rfl, rfl, rfl, rfl⟩ := registerForm_unique form form'
    cases hv'.symm.trans hv
  | mismatch form' hcode hv' hne =>
    obtain ⟨rfl, rfl, rfl, rfl⟩ := registerForm_unique form form'
    cases hv'.symm.trans hv
    exact .mismatch rfl hcode hne (by simp [GoesOn]) rfl
  | existsThrew form' hcode hv' | exist form' hcode hv' =>
    obtain ⟨rfl, rfl, rfl, rfl⟩ := registerForm_unique form form'
    cases hv'.symm.trans hv
    exact .matched rfl hcode (by simp)
  | regThrew _ _ _ hrun | regFault _ _ _ hrun =>
    obtain ⟨r, h, -⟩ := MysqlDao.regUser_runs hrun
    cases h
  | refused form' hcode hv' hrun | twice form' hcode hv' hrun
  | registered form' hcode hv' hrun =>
    obtain ⟨rfl, rfl, rfl, rfl⟩ := registerForm_unique form form'
    cases hv'.symm.trans hv
    obtain ⟨r, -, hcall⟩ := MysqlDao.regUser_runs hrun
    refine .matched ?_ hcode (by simp)
    simp only [lookups_append, MysqlDao.callRun_lookups hcall]
    rfl

theorem submitForgetPasswd_checked (hr : Runs (submitForgetPasswd libs (.ofDao libs) body) tr e)
    (form : SubmitForm libs body src email uid newPasswd given) : Checked email given tr e := by
  cases submitForgetPasswd_ok.ends hr with
  | badJson hp => cases hp.symm.trans form.parse
  | unreadable => exact .unanswered rfl (by simp [GoesOn]) (by simp)
  | noConn => exact .unanswered rfl (by simp [GoesOn]) (by simp)
  | getThrew => exact .unanswered rfl (by simp [GoesOn]) (by simp)
  | absent form' =>
    obtain ⟨rfl, rfl, rfl, rfl, rfl⟩ := submitForm_unique form form'
    exact .absent rfl
  | expired form' =>
    obtain ⟨rfl, rfl, rfl, rfl, rfl⟩ := submitForm_unique form form'
    exact .expired rfl (by simp [GoesOn]) rfl
  | mismatch form' hcode hne =>
    obtain ⟨rfl, rfl, rfl, rfl, rfl⟩ := submitForm_unique form form'
    exact .mismatch rfl hcode hne (by simp [GoesOn]) rfl
  | changeThrew _ _ hrun | changeFault _ _ hrun =>
    obtain ⟨r, h, -⟩ := MysqlDao.changePasswd_runs hrun
    cases h
  | refused form' hcode hrun | changed form' hcode hrun | unnamed form' hcode hrun =>
    obtain ⟨rfl, rfl, rfl, rfl, rfl⟩ := submitForm_unique form form'
    obtain ⟨r, -, hcall⟩ := MysqlDao.changePasswd_runs hrun
    refine .matched ?_ hcode (by simp)
    simp only [lookups_append, MysqlDao.callRun_lookups hcall]
    rfl

inductive CodeForm (libs : Libs) (email given : String) : CodeRequest → Prop
  | userRegister : RegisterForm libs body src email name pwd →
      src.text "varify_code" = .ok given → CodeForm libs email given (.userRegister body)
  | submitForgetPasswd : SubmitForm libs body src email uid newPasswd given →
      CodeForm libs email given (.submitForgetPasswd body)

theorem CodeRequest.checked {r : CodeRequest} (form : CodeForm libs email given r)
    (hr : Runs (r.handle libs (.ofDao libs)) tr e) : Checked email given tr e := by
  cases form with
  | userRegister form hv => exact userRegister_checked hr form hv
  | submitForgetPasswd form => exact submitForgetPasswd_checked hr form

theorem CodeRequest.absent_runs {r : CodeRequest} (form : CodeForm libs email given r)
    (conn : Conn) :
    Runs (r.handle libs mgr) [⟨.acquire .redis, some conn⟩,
      ⟨.redisGet conn ("code_" ++ email), .ok none⟩] (.undef .emptyOptional) := by
  cases form with
  | userRegister form hv =>
    obtain ⟨confirm, hconfirm⟩ := form.confirm
    simp only [handle, LogicalSystem.userRegister, form.parse, text, form.email, form.user,
      form.passwd, hconfirm, Prog.ofExcept_ok, pure_bind]
    exact .call _ (.call _ .refl)
  | submitForgetPasswd form =>
    simp only [handle, LogicalSystem.submitForgetPasswd, form.parse, text, form.email, form.uid,
      form.newPasswd, form.varifyCode, Prog.ofExcept_ok, pure_bind]
    exact .call _ (.call _ .refl)

structure RefusesStale (given : String) (stored : Option String) (tr : Trace)
    (e : Exit Bool) : Prop where
  noDeref : e ≠ .undef .emptyOptional
  expired : lookups tr ≠ [] → stored = none ∨ stored = some "" →
    replies tr = [.ofError .varifyEXpired]
  mismatch : lookups tr ≠ [] → ∀ code, stored = some code → code ≠ "" → code ≠ given →
    replies tr = [.ofError .varifyError]
  goesOn : GoesOn tr → ∃ code, stored = some code ∧ code ≠ "" ∧ code = given

/-- A request treats its code correctly iff the key is there. -/
theorem refuses_stale_iff {r : CodeRequest} {redis : String → Option String}
    (form : CodeForm libs email given r) :
    (∀ tr e, Runs (r.handle libs (.ofDao libs)) tr e → Answers redis tr →
      RefusesStale given (redis ("code_" ++ email)) tr e) ↔
    redis ("code_" ++ email) ≠ none := by
  constructor
  · intro hall hnone
    refine (hall _ _ (CodeRequest.absent_runs form 0) ?_).noDeref rfl
    simp [Answers, lookups, hnone]
  · intro hsome tr e hrun hans
    cases CodeRequest.checked form hrun with
    | unanswered hl hg he =>
      exact ⟨he, fun h => absurd hl h, fun h => absurd hl h, fun h => absurd h hg⟩
    | absent hl =>
      have h := hans ("code_" ++ email, none) (by simp [hl])
      exact absurd h.symm hsome
    | expired hl hg hrep =>
      have h : some "" = redis ("code_" ++ email) := hans ("code_" ++ email, some "") (by simp [hl])
      refine ⟨by simp, fun _ _ => hrep, fun _ code hcode hne => ?_, fun h => absurd h hg⟩
      exact absurd (Option.some.inj (hcode.symm.trans h.symm)) hne
    | @mismatch code hl hcode hne hg hrep =>
      have h : some code = redis ("code_" ++ email) :=
        hans ("code_" ++ email, some code) (by simp [hl])
      refine ⟨by simp, fun _ hnone => ?_, fun _ _ _ _ _ => hrep, fun h => absurd h hg⟩
      rw [← h] at hnone
      simp [hcode] at hnone
    | matched hl hne he =>
      have h : some given = redis ("code_" ++ email) :=
        hans ("code_" ++ email, some given) (by simp [hl])
      rw [← h]
      exact ⟨he, by simp [hne], by simp, fun _ => ⟨given, rfl, hne, rfl⟩⟩

theorem codeForm_codeBody : CodeForm codeLibs "e" "c" (.userRegister codeBody) :=
  .userRegister codeBody_form rfl

def mismatchTrace : Trace :=
  [⟨.acquire .redis, some 0⟩, ⟨.redisGet 0 "code_e", .ok (some "d")⟩,
    ⟨.write (.ofError .varifyError), ()⟩, ⟨.release .redis 0, ()⟩]

theorem refuses_stale_mismatch : RefusesStale "c" (some "d") mismatchTrace (.ret true) := by
  have hrun : Runs (CodeRequest.handle codeLibs (.ofDao codeLibs) (.userRegister codeBody))
      mismatchTrace (.ret true) := .call _ (.call _ (.call _ (.call _ .refl)))
  have hans : Answers (fun _ => some "d") mismatchTrace := by
    simp [Answers, lookups, mismatchTrace]
  exact (refuses_stale_iff codeForm_codeBody).mpr (by simp) _ _ hrun hans

/-- With an empty Redis the absent code is dereferenced. -/
theorem stale_code_dereferenced : ∃ tr e,
    Runs (CodeRequest.handle codeLibs (.ofDao codeLibs) (.userRegister codeBody)) tr e ∧
    Answers (fun _ => none) tr ∧ ¬ RefusesStale "c" none tr e := by
  refine ⟨_, _, CodeRequest.absent_runs codeForm_codeBody 0, ?_, fun h => h.noDeref rfl⟩
  simp [Answers, lookups]

end LogicalSystem
end GateServer
