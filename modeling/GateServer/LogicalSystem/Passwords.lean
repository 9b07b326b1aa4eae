import Mathlib.Data.List.Forall2
import GateServer.Interact.Lockstep
import GateServer.LogicalSystem

/-!
# Passwords and the log

Two requests that differ in their passwords lead to the same operations up to the
passwords, and to the same log.
-/

namespace GateServer

open Interact

-- ---------------------------------------------------------------------------
-- What the outside says
-- ---------------------------------------------------------------------------

inductive Outcome
  | lent (conn : Option Conn)
  | found (answer : Except String (Option String))
  | did (answer : Except String Bool)
  | rows (answer : Except String StoreQueryResult)
  | varify (answer : Status × GetVarifyRsp)
  | chatServer (answer : Status × GetChatServerRsp)
  | dao (answer : Σ call : DaoCall, call.Result)

def outcome : Ev → Option Outcome
  | ⟨.acquire _, conn⟩ => some (.lent conn)
  | ⟨.redisGet .., answer⟩ => some (.found answer)
  | ⟨.redisExists .., answer⟩ => some (.did answer)
  | ⟨.execute .., answer⟩ => some (.did answer)
  | ⟨.store .., answer⟩ => some (.rows answer)
  | ⟨.getVarifyCode .., answer⟩ => some (.varify answer)
  | ⟨.getChatServer .., answer⟩ => some (.chatServer answer)
  | ⟨.dao call, answer⟩ => some (.dao ⟨call, answer⟩)
  | ⟨.push .., _⟩ | ⟨.log .., _⟩ | ⟨.write _, _⟩ | ⟨.release .., _⟩ => none

/-- What the pools, Redis, MySQL and the services answered in a run, in order. -/
def outcomes (tr : Trace) : List Outcome := tr.filterMap outcome

def Op.silent : Op → Bool
  | .push .. | .log .. | .write _ | .release .. => true
  | _ => false

theorem outcome_eq_none (ev : Ev) : outcome ev = none ↔ ev.op.silent = true := by
  obtain ⟨op, a⟩ := ev
  cases op <;> simp [outcome, Op.silent]

theorem outcome_whole {op : Op} {a a' : Ans op} (h : outcome ⟨op, a⟩ = outcome ⟨op, a'⟩) :
    a = a' := by
  cases op <;> simp_all [outcome]

-- ---------------------------------------------------------------------------
-- What does not depend on a password
-- ---------------------------------------------------------------------------

def Query.withoutPasswd : Query → Query
  | .regUser name _ email => .regUser name "" email
  | .loginUser email _ uid isEmail => .loginUser email "" uid isEmail
  | .changePasswd email uid _ => .changePasswd email uid ""
  | query => query

/-- An operation with its password removed. A reply may repeat a password. -/
def Op.withoutPasswd : Op → Op
  | .execute conn query => .execute conn query.withoutPasswd
  | .write _ => .write []
  | op => op

theorem withoutPasswd_silent (op : Op) : op.withoutPasswd.silent = op.silent := by
  cases op <;> rfl

def passwordless : View Ans Op Outcome where
  look := Op.withoutPasswd
  said := outcome
  alike {op op'} a a' h := by
    rw [outcome_eq_none, outcome_eq_none, ← withoutPasswd_silent op, h, withoutPasswd_silent]
  whole := outcome_whole

def Op.logs : Op → Bool
  | .push .. | .log .. => true
  | _ => false

def logged (tr : Trace) : List Op := (tr.map Event.op).filter Op.logs

theorem withoutPasswd_logs (op : Op) : op.withoutPasswd.logs = op.logs := by
  cases op <;> rfl

theorem withoutPasswd_of_logs {op : Op} (h : op.logs = true) : op.withoutPasswd = op := by
  cases op with
  | execute => cases h
  | write => cases h
  | _ => rfl

theorem logged_eq (tr : Trace) : logged tr = (passwordless.seen tr).filter Op.logs := by
  induction tr with
  | nil => rfl
  | cons ev tr ih =>
    obtain ⟨op, a⟩ := ev
    have hlook : passwordless.look op = op.withoutPasswd := rfl
    simp only [logged, View.seen, List.map_cons, List.filter_cons, hlook,
      withoutPasswd_logs] at ih ⊢
    by_cases hlogs : op.logs = true
    · rw [if_pos hlogs, if_pos hlogs, ih, withoutPasswd_of_logs hlogs]
    · rw [if_neg hlogs, if_neg hlogs, ih]

-- ---------------------------------------------------------------------------
-- The gRPC client and the data-access layer
-- ---------------------------------------------------------------------------

abbrev Alike (R : α → β → Prop) (p : Act α) (p' : Act β) : Prop := Lockstep passwordless R p p'

theorem alike_execute {query query' : Query} (h : query.withoutPasswd = query'.withoutPasswd)
    (conn : Conn) : Alike Eq (execute conn query) (execute conn query') := by
  have hlook : passwordless.look (.execute conn query) = passwordless.look (.execute conn query') :=
    congrArg (Op.execute conn) h
  refine (Lockstep.ask hlook).bind fun a a' ha => ?_
  simp only [passwordless, outcome, Option.some.injEq, Outcome.did.injEq] at ha
  exact .ofExcept ha

theorem alike_write (doc doc' : Json.Object) : Alike Eq (write doc) (write doc') := by
  have hlook : passwordless.look (.write doc) = passwordless.look (.write doc') := rfl
  exact (Lockstep.ask hlook).mono fun _ _ _ => rfl

namespace MysqlDao

theorem alike_callProcedure {call call' : Query} (h : call.withoutPasswd = call'.withoutPasswd) :
    Alike Eq (callProcedure noConn call select refused noRow answered threw)
      (callProcedure noConn call' select refused noRow answered threw) := by
  unfold callProcedure
  refine Lockstep.tryCatch (.before _ fun conn => ?_) fun w => .refl _
  cases conn with
  | none => exact .refl _
  | some conn =>
    apply (alike_execute h conn).bind
    rintro done _ rfl
    exact .refl _

theorem alike_regUser (name email pwd pwd' : String) :
    Alike Eq (regUser name email pwd) (regUser name email pwd') := alike_callProcedure rfl

theorem alike_changePasswd (email uid pwd pwd' : String) :
    Alike Eq (changePasswdWhenUserForgetPasswd email uid pwd)
      (changePasswdWhenUserForgetPasswd email uid pwd') := alike_callProcedure rfl

theorem alike_loginUser (email : String) (uid : Nat) (isEmail : Int) (pwd pwd' : String) :
    Alike (fun r r' => r.1 = r'.1 ∧ r.2.uid = r'.2.uid)
      (loginUser pwd ⟨uid, email, pwd⟩ isEmail) (loginUser pwd' ⟨uid, email, pwd'⟩ isEmail) := by
  unfold loginUser
  refine Lockstep.tryCatch (.before _ fun conn => ?_) fun w => ?_
  · cases conn with
    | none => exact .before _ fun _ => .ret ⟨rfl, rfl⟩
    | some conn =>
      have hquery : (Query.loginUser email pwd uid isEmail).withoutPasswd =
          (Query.loginUser email pwd' uid isEmail).withoutPasswd := rfl
      apply (alike_execute hquery conn).bind
      rintro done _ rfl
      cases done with
      | false =>
        exact .before _ fun _ => .before _ fun _ => .ret ⟨rfl, rfl⟩
      | true =>
        refine .before _ fun res => ?_
        cases hres : res.first with
        | none => exact .done .undef
        | some cell =>
          refine .before _ fun answer => .before _ fun _ => .before _ fun _ => .ret ⟨rfl, ?_⟩
          cases answer.first <;> rfl
  · exact .before _ fun _ => .ret ⟨rfl, rfl⟩

end MysqlDao

-- ---------------------------------------------------------------------------
-- Two requests
-- ---------------------------------------------------------------------------

namespace LogicalSystem

def secrets : List String := ["passwd", "new_passwd", "confirm"]

theorem email_public : "email" ∉ secrets := by decide
theorem user_public : "user" ∉ secrets := by decide
theorem uid_public : "uid" ∉ secrets := by decide
theorem isEmail_public : "is_email" ∉ secrets := by decide
theorem varifyCode_public : "varify_code" ∉ secrets := by decide

/-- Equal values, or two texts where the field is a secret. -/
inductive SameField (key : String) : Json.Value → Json.Value → Prop
  | same : SameField key v v
  | secret : key ∈ secrets → SameField key (.string s) (.string s')

def SameMember (m m' : String × Json.Value) : Prop := m.1 = m'.1 ∧ SameField m.1 m.2 m'.2

def SameRequest (libs : Libs) (body body' : String) : Prop :=
  ∃ ms ms', libs.parse body = some (.object ms) ∧ libs.parse body' = some (.object ms') ∧
    List.Forall₂ SameMember ms ms'

theorem SameField.eq_of_public (h : SameField key v v') (hk : key ∉ secrets) : v = v' := by
  cases h with
  | same => rfl
  | secret hs => exact absurd hs hk

theorem lookup_same (h : List.Forall₂ SameMember ms ms') (key : String) :
    (ms.lookup key).isSome = (ms'.lookup key).isSome ∧
      SameField key ((ms.lookup key).getD .null) ((ms'.lookup key).getD .null) := by
  induction h with
  | nil => exact ⟨rfl, .same⟩
  | @cons m m' ms ms' hm _ ih =>
    obtain ⟨k, v⟩ := m
    obtain ⟨k', v'⟩ := m'
    obtain ⟨rfl, hv⟩ := hm
    simp only [List.lookup_cons]
    by_cases hk : key = k
    · subst hk
      simpa using hv
    · simpa [beq_false_of_ne hk] using ih

section
variable {ms ms' : List (String × Json.Value)} (h : List.Forall₂ SameMember ms ms')
include h

theorem get_public (hk : key ∉ secrets) :
    Json.Value.get (.object ms') key = Json.Value.get (.object ms) key :=
  congrArg Except.ok ((lookup_same h key).2.eq_of_public hk).symm

theorem field_public (hk : key ∉ secrets) : field (.object ms') key = field (.object ms) key :=
  congrArg Prog.ofExcept (get_public h hk)

theorem text_public (hk : key ∉ secrets) : text (.object ms') key = text (.object ms) key := by
  unfold text Json.Value.text
  rw [get_public h hk]

theorem number_public (hk : key ∉ secrets) :
    number (.object ms') key = number (.object ms) key := by
  unfold number
  rw [get_public h hk]

theorem isMember_same (key : String) :
    Json.Value.isMember (.object ms') key = Json.Value.isMember (.object ms) key :=
  congrArg Except.ok (lookup_same h key).1.symm

theorem alike_text (key : String) :
    Alike (fun _ _ => True) (text (.object ms) key) (text (.object ms') key) := by
  have hfield := (lookup_same h key).2
  show Alike _ (.ofExcept ((ms.lookup key).getD .null).asString)
    (.ofExcept ((ms'.lookup key).getD .null).asString)
  generalize (ms.lookup key).getD .null = v at hfield ⊢
  generalize (ms'.lookup key).getD .null = v' at hfield ⊢
  cases hfield with
  | same => exact (Lockstep.refl _).mono fun _ _ _ => trivial
  | secret => exact .ret trivial

end

theorem field_object (ms : List (String × Json.Value)) (key : String) :
    field (.object ms) key = pure ((ms.lookup key).getD .null) := rfl

-- ---------------------------------------------------------------------------
-- The handlers
-- ---------------------------------------------------------------------------

theorem alike_loginUser (libs : Libs) (email name : String) (uid : Nat) (isEmail : Int)
    (pwd pwd' : String) :
    Alike Eq (loginUser (.ofDao libs) email name pwd isEmail ⟨uid, email, pwd⟩)
      (loginUser (.ofDao libs) email name pwd' isEmail ⟨uid, email, pwd'⟩) := by
  unfold loginUser
  apply (MysqlDao.alike_loginUser email uid isEmail pwd pwd').bind
  rintro ⟨result, user⟩ ⟨result', user'⟩ ⟨hresult, huid⟩
  cases hresult
  dsimp only at huid ⊢
  rw [huid]
  exact .refl _

section
variable {libs : Libs} {body body' : String} (h : SameRequest libs body body')
include h

theorem alike_getVarifyCode :
    Alike Eq (getVarifyCode libs body) (getVarifyCode libs body') := by
  obtain ⟨ms, ms', hp, hp', hms⟩ := h
  simp only [getVarifyCode, hp, hp', isMember_same hms, text_public hms email_public,
    field_public hms email_public]
  exact .refl _

theorem alike_getVarifyCodeForgetPasswd (mgr : MySqlMgr) :
    Alike Eq (getVarifyCodeForgetPasswd libs mgr body)
      (getVarifyCodeForgetPasswd libs mgr body') := by
  obtain ⟨ms, ms', hp, hp', hms⟩ := h
  simp only [getVarifyCodeForgetPasswd, hp, hp', text_public hms email_public,
    text_public hms uid_public, field_public hms email_public, field_public hms uid_public]
  exact .refl _

theorem alike_getUserIcon (mgr : MySqlMgr) :
    Alike Eq (getUserIcon libs mgr body) (getUserIcon libs mgr body') := by
  obtain ⟨ms, ms', hp, hp', hms⟩ := h
  simp only [getUserIcon, hp, hp', text_public hms email_public, text_public hms uid_public,
    number_public hms isEmail_public]
  exact .refl _

theorem alike_userRegister :
    Alike Eq (userRegister libs (.ofDao libs) body) (userRegister libs (.ofDao libs) body') := by
  obtain ⟨ms, ms', hp, hp', hms⟩ := h
  simp only [userRegister, hp, hp', text_public hms email_public, text_public hms user_public,
    text_public hms varifyCode_public]
  refine .before _ fun email => .before _ fun name => ?_
  refine (alike_text hms "passwd").bind fun pwd pwd' _ => ?_
  refine (alike_text hms "confirm").bind fun _ _ _ => ?_
  refine .before _ fun keyEmail => .before _ fun looked => ?_
  obtain ⟨redisConn, code⟩ := looked
  refine .branch (fun _ => .refl _) fun _ => .before _ fun given => ?_
  refine .branch (fun _ => .refl _) fun _ => .before _ fun usrEmail => ?_
  refine .before _ fun usrExist => ?_
  cases usrExist with
  | true => exact .refl _
  | false =>
  apply (MysqlDao.alike_regUser name email pwd pwd').bind
  rintro result _ rfl
  refine .branch (fun _ => .refl _) fun _ => ?_
  -- the reply repeats the secrets
  have hreply (doc doc' : Json.Object) : Alike Eq
      (do write doc; RedisPool.returnConnection redisConn; return true)
      (do write doc'; RedisPool.returnConnection redisConn; return true) :=
    (alike_write doc doc').bind fun _ _ _ => .refl _
  simp only [field_object, pure_bind]
  refine .branch (fun _ => ?_) fun _ => hreply _ _
  exact .before _ fun _ => .before _ fun _ => hreply _ _

theorem alike_submitForgetPasswd :
    Alike Eq (submitForgetPasswd libs (.ofDao libs) body)
      (submitForgetPasswd libs (.ofDao libs) body') := by
  obtain ⟨ms, ms', hp, hp', hms⟩ := h
  simp only [submitForgetPasswd, hp, hp', text_public hms email_public, text_public hms uid_public,
    text_public hms varifyCode_public, field_public hms email_public, field_public hms uid_public]
  refine .before _ fun email => .before _ fun uid => ?_
  refine (alike_text hms "new_passwd").bind fun newPasswd newPasswd' _ => ?_
  refine .before _ fun varifyCode => .before _ fun looked => ?_
  obtain ⟨redisConn, code⟩ := looked
  refine .branch (fun _ => .refl _) fun _ => .branch (fun _ => .refl _) fun _ => ?_
  apply (MysqlDao.alike_changePasswd email uid newPasswd newPasswd').bind
  rintro result _ rfl
  exact .refl _

theorem alike_userLogin :
    Alike Eq (userLogin libs (.ofDao libs) body) (userLogin libs (.ofDao libs) body') := by
  obtain ⟨ms, ms', hp, hp', hms⟩ := h
  simp only [userLogin, hp, hp', text_public hms email_public, text_public hms user_public,
    text_public hms uid_public, number_public hms isEmail_public]
  refine .before _ fun email => .before _ fun name => ?_
  refine (alike_text hms "passwd").bind fun pwd pwd' _ => .before _ fun isEmail => ?_
  refine .branch (fun _ => .before _ fun uid => ?_) fun _ => ?_
  · exact alike_loginUser libs email name _ isEmail pwd pwd'
  · exact alike_loginUser libs email name 0 isEmail pwd pwd'

theorem alike_postHandlers (hpost : (url, handler) ∈ postHandlers libs (.ofDao libs)) :
    Alike Eq (handler body) (handler body') := by
  simp only [postHandlers, List.mem_cons, List.not_mem_nil, or_false, Prod.mk.injEq] at hpost
  obtain ⟨-, rfl⟩ | ⟨-, rfl⟩ | ⟨-, rfl⟩ | ⟨-, rfl⟩ | ⟨-, rfl⟩ | ⟨-, rfl⟩ := hpost
  · exact alike_getVarifyCode h
  · exact alike_userRegister h
  · exact alike_userLogin h
  · exact alike_getVarifyCodeForgetPasswd h _
  · exact alike_submitForgetPasswd h
  · exact alike_getUserIcon h _

end

/-- Two requests that differ only in their secrets log the same messages, given the same
answers. -/
theorem passwords_not_logged (hpost : (url, handler) ∈ postHandlers libs (.ofDao libs))
    (h : SameRequest libs body body') (hr : Runs (handler body) tr e)
    (hr' : Runs (handler body') tr' e') (ho : Comparable (outcomes tr) (outcomes tr')) :
    logged tr = logged tr' := by
  have hseen := ((alike_postHandlers h hpost).runs hr hr' ho).1
  rw [logged_eq, logged_eq, hseen]

def secretBody (passwd : String) : String :=
  "\x7b\"email\":\"e\",\"is_email\":1,\"passwd\":\"" ++ passwd ++ "\"\x7d"

def secretFields (passwd : String) : List (String × Json.Value) :=
  [("email", .string "e"), ("is_email", .integer 1), ("passwd", .string passwd)]

def secretLibs : Libs := .ofBodies
  [(secretBody "p", .object (secretFields "p")), (secretBody "q", .object (secretFields "q"))]

def secretTrace (passwd : String) : Trace :=
  [⟨.acquire .mySql, some 0⟩, ⟨.execute 0 (.loginUser "e" passwd 0 1), .ok false⟩,
    ⟨.push .error "Failed to login user: e", ()⟩, ⟨.release .mySql 0, ()⟩,
    ⟨.push .error "Failed to login user: e", ()⟩, ⟨.write [("error", .integer 1006)], ()⟩]

theorem passwords_not_logged_login : logged (secretTrace "p") = logged (secretTrace "q") := by
  have hsame : SameRequest secretLibs (secretBody "p") (secretBody "q") := by
    refine ⟨secretFields "p", secretFields "q", rfl, rfl, ?_⟩
    exact .cons ⟨rfl, .same⟩ (.cons ⟨rfl, .same⟩ (.cons ⟨rfl, .secret (.head _)⟩ .nil))
  have hpost : ("/user_login", userLogin secretLibs (.ofDao secretLibs)) ∈
      postHandlers secretLibs (.ofDao secretLibs) := .tail _ (.tail _ (.head _))
  have hrun : Runs (userLogin secretLibs (.ofDao secretLibs) (secretBody "p")) (secretTrace "p")
      (.ret true) := .call _ (.call _ (.call _ (.call _ (.call _ (.call _ .refl)))))
  have hrun' : Runs (userLogin secretLibs (.ofDao secretLibs) (secretBody "q")) (secretTrace "q")
      (.ret true) := .call _ (.call _ (.call _ (.call _ (.call _ (.call _ .refl)))))
  exact passwords_not_logged hpost hsame hrun hrun' (.inl (List.prefix_refl _))

end LogicalSystem
end GateServer
