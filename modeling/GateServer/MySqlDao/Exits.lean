import GateServer.MySqlDao

/-!
# Exits of the data-access methods

One table for each method, with the trace and the end of every run. Later results about
the methods use these tables only.
-/

namespace GateServer

open Interact

namespace MysqlDao

-- ---------------------------------------------------------------------------
-- Calling a procedure
-- ---------------------------------------------------------------------------

inductive CallRun (noConn : ErrorCodes) (call select : Query) : Trace → Int → Prop
  | noConn : CallRun noConn call select [⟨.acquire .mySql, none⟩, ⟨.push l m, ()⟩] noConn
  | refused : CallRun noConn call select
      [⟨.acquire .mySql, some conn⟩, ⟨.execute conn call, .ok false⟩, ⟨.push l m, ()⟩,
        ⟨.release .mySql conn, ()⟩] ErrorCodes.mySqlError
  | answered : res.first = some cell → CallRun noConn call select
      [⟨.acquire .mySql, some conn⟩, ⟨.execute conn call, .ok true⟩,
        ⟨.store conn select, .ok res⟩, ⟨.push l m, ()⟩, ⟨.release .mySql conn, ()⟩]
      (atoi cell.data)
  | noRow : res.first = none → CallRun noConn call select
      [⟨.acquire .mySql, some conn⟩, ⟨.execute conn call, .ok true⟩,
        ⟨.store conn select, .ok res⟩, ⟨.push l m, ()⟩, ⟨.release .mySql conn, ()⟩]
      ErrorCodes.rpcFail
  | callThrew : CallRun noConn call select
      [⟨.acquire .mySql, some conn⟩, ⟨.execute conn call, .error w⟩, ⟨.push l m, ()⟩]
      ErrorCodes.rpcFail
  | selectThrew : CallRun noConn call select
      [⟨.acquire .mySql, some conn⟩, ⟨.execute conn call, .ok true⟩,
        ⟨.store conn select, .error w⟩, ⟨.push l m, ()⟩] ErrorCodes.rpcFail

theorem callProcedure_ok :
    Spec .any [] (callProcedure noConn call select refused noRow answered threw)
      (Returns (CallRun noConn call select)) := by
  simp only [callProcedure, spec_tryCatch, execute, store, bind_assoc]
  refine .ask fun conn => ?_
  cases conn with
  | none => exact .call fun _ => .noConn
  | some conn =>
    refine .ask fun done => ?_
    rcases done with w | done | done
    · exact .call fun _ => .callThrew
    · exact .call fun _ => .call fun _ => .refused
    · refine .ask fun res => ?_
      cases res with
      | error w => exact .call fun _ => .selectThrew
      | ok res =>
        simp only [Prog.ofExcept_ok, pure_bind]
        cases hres : res.first with
        | none => exact .call fun _ => .call fun _ => .noRow hres
        | some cell => exact .call fun _ => .call fun _ => .answered hres

theorem callRun_executes (hr : CallRun noConn call select tr r) :
    ∀ ev ∈ tr, ∀ conn query, ev.op = .execute conn query → query = call := by
  cases hr <;> simp +contextual

theorem callRun_replies (hr : CallRun noConn call select tr r) : replies tr = [] := by
  cases hr <;> rfl

theorem callRun_lookups (hr : CallRun noConn call select tr r) : lookups tr = [] := by
  cases hr <;> rfl

theorem regUser_runs (h : Runs (regUser name email pwd) tr e) :
    ∃ r, e = .ret r ∧ CallRun .rpcFail (.regUser name pwd email) .selectResult tr r :=
  (callProcedure_ok.ends h).exists

theorem changePasswd_runs (h : Runs (changePasswdWhenUserForgetPasswd email uid newPasswd) tr e) :
    ∃ r, e = .ret r ∧ CallRun .mySqlError (.changePasswd email uid newPasswd) .selectIsok tr r :=
  (callProcedure_ok.ends h).exists

-- ---------------------------------------------------------------------------
-- Logging in
-- ---------------------------------------------------------------------------

def withUid (user : UserInfo) (res : StoreQueryResult) : UserInfo :=
  match res.first with
  | some cell => { user with uid := toUInt64 (atoi cell.data) }
  | none => user

inductive LoginRun (pwd : String) (user : UserInfo) (isEmail : Int) :
    Trace → Exit (Int × UserInfo) → Prop
  | noConn : LoginRun pwd user isEmail [⟨.acquire .mySql, none⟩, ⟨.push l m, ()⟩]
      (.ret (ErrorCodes.mySqlError.toInt, user))
  | refused : LoginRun pwd user isEmail
      [⟨.acquire .mySql, some conn⟩,
        ⟨.execute conn (.loginUser user.email pwd user.uid isEmail), .ok false⟩,
        ⟨.push l m, ()⟩, ⟨.release .mySql conn, ()⟩]
      (.ret (ErrorCodes.mySqlError.toInt, user))
  | answered : res.first = some cell → LoginRun pwd user isEmail
      [⟨.acquire .mySql, some conn⟩,
        ⟨.execute conn (.loginUser user.email pwd user.uid isEmail), .ok true⟩,
        ⟨.store conn .selectLoginResult, .ok res⟩, ⟨.store conn .selectUserUid, .ok uid⟩,
        ⟨.push l m, ()⟩, ⟨.release .mySql conn, ()⟩]
      (.ret (atoi cell.data, withUid user uid))
  | noRow : res.first = none → LoginRun pwd user isEmail
      [⟨.acquire .mySql, some conn⟩,
        ⟨.execute conn (.loginUser user.email pwd user.uid isEmail), .ok true⟩,
        ⟨.store conn .selectLoginResult, .ok res⟩] (.undef .offEnd)
  | callThrew : LoginRun pwd user isEmail
      [⟨.acquire .mySql, some conn⟩,
        ⟨.execute conn (.loginUser user.email pwd user.uid isEmail), .error w⟩,
        ⟨.push l m, ()⟩]
      (.ret (ErrorCodes.mySqlError.toInt, user))
  | selectThrew : LoginRun pwd user isEmail
      [⟨.acquire .mySql, some conn⟩,
        ⟨.execute conn (.loginUser user.email pwd user.uid isEmail), .ok true⟩,
        ⟨.store conn .selectLoginResult, .error w⟩, ⟨.push l m, ()⟩]
      (.ret (ErrorCodes.mySqlError.toInt, user))
  | uidThrew : res.first = some cell → LoginRun pwd user isEmail
      [⟨.acquire .mySql, some conn⟩,
        ⟨.execute conn (.loginUser user.email pwd user.uid isEmail), .ok true⟩,
        ⟨.store conn .selectLoginResult, .ok res⟩, ⟨.store conn .selectUserUid, .error w⟩,
        ⟨.push l m, ()⟩]
      (.ret (ErrorCodes.mySqlError.toInt, user))

theorem loginUser_ok : Spec .any [] (loginUser pwd user isEmail) (LoginRun pwd user isEmail) := by
  simp only [loginUser, spec_tryCatch, execute, store, bind_assoc]
  refine .ask fun conn => ?_
  cases conn with
  | none => exact .call fun _ => .noConn
  | some conn =>
    refine .ask fun done => ?_
    rcases done with w | done | done
    · exact .call fun _ => .callThrew
    · exact .call fun _ => .call fun _ => .refused
    · refine .ask fun res => ?_
      cases res with
      | error w => exact .call fun _ => .selectThrew
      | ok res =>
        simp only [Prog.ofExcept_ok, pure_bind]
        cases hres : res.first with
        | none => exact .noRow hres
        | some cell =>
          refine .ask fun uid => ?_
          cases uid with
          | error w => exact .call fun _ => .uidThrew hres
          | ok uid => exact .call fun _ => .call fun _ => .answered hres

theorem loginRun_quiet (hr : LoginRun pwd user isEmail tr e) :
    replies tr = [] ∧ chatServers tr = [] := by
  cases hr <;> exact ⟨rfl, rfl⟩

-- ---------------------------------------------------------------------------
-- Looking up a user
-- ---------------------------------------------------------------------------

inductive ExistsRun (email uid : String) : Trace → Exit Bool → Prop
  | noConn : ExistsRun email uid [⟨.acquire .mySql, none⟩, ⟨.push l m, ()⟩] (.ret false)
  | same : res.first = some cell → cell.data = uid → ExistsRun email uid
      [⟨.acquire .mySql, some conn⟩, ⟨.store conn (.selectUidByEmail email), .ok res⟩,
        ⟨.push l m, ()⟩, ⟨.push l' m', ()⟩, ⟨.release .mySql conn, ()⟩] (.ret true)
  | other : res.first = some cell → cell.data ≠ uid → ExistsRun email uid
      [⟨.acquire .mySql, some conn⟩, ⟨.store conn (.selectUidByEmail email), .ok res⟩,
        ⟨.push l m, ()⟩, ⟨.push l' m', ()⟩, ⟨.release .mySql conn, ()⟩] (.ret false)
  | noRow : res.first = none → ExistsRun email uid
      [⟨.acquire .mySql, some conn⟩, ⟨.store conn (.selectUidByEmail email), .ok res⟩]
      (.undef .offEnd)
  | selectThrew : ExistsRun email uid
      [⟨.acquire .mySql, some conn⟩, ⟨.store conn (.selectUidByEmail email), .error w⟩,
        ⟨.push l m, ()⟩] (.ret false)

theorem existsUser_ok : Spec .any [] (existsUser email uid) (ExistsRun email uid) := by
  simp only [existsUser, spec_tryCatch, store, bind_assoc]
  refine .ask fun conn => ?_
  cases conn with
  | none => exact .call fun _ => .noConn
  | some conn =>
    refine .ask fun res => ?_
    cases res with
    | error w => exact .call fun _ => .selectThrew
    | ok res =>
      simp only [Prog.ofExcept_ok, pure_bind]
      cases hres : res.first with
      | none => exact .noRow hres
      | some cell =>
        refine .ask fun _ => ?_
        by_cases heq : cell.data = uid
        · simp only [heq, if_true]
          exact .call fun _ => .call fun _ => .same hres heq
        · simp only [heq, if_false]
          exact .call fun _ => .call fun _ => .other hres heq

theorem existsRun_replies (hr : ExistsRun email uid tr e) : replies tr = [] := by
  cases hr <;> rfl

inductive IconRun (uid : Int) : Trace → String → Prop
  | noConn : IconRun uid [⟨.acquire .mySql, none⟩, ⟨.push l m, ()⟩] ""
  | answered : IconRun uid
      [⟨.acquire .mySql, some conn⟩, ⟨.store conn (.selectUserIcon uid), .ok res⟩,
        ⟨.release .mySql conn, ()⟩] ((res.first.map Cell.data).getD "")
  | selectThrew : IconRun uid
      [⟨.acquire .mySql, some conn⟩, ⟨.store conn (.selectUserIcon uid), .error w⟩] ""

theorem getUserIcon_ok : Spec .any [] (getUserIcon uid) (Returns (IconRun uid)) := by
  simp only [getUserIcon, spec_tryCatch, store, bind_assoc]
  refine .ask fun conn => ?_
  cases conn with
  | none => exact .call fun _ => .noConn
  | some conn =>
    refine .ask fun res => ?_
    cases res with
    | error w => exact .selectThrew
    | ok res => exact .call fun _ => .answered

theorem getUserIcon_runs (h : Runs (getUserIcon uid) tr e) :
    ∃ data, e = .ret data ∧ IconRun uid tr data :=
  (getUserIcon_ok.ends h).exists

inductive UidRun (libs : Libs) (email : String) : Trace → Exit Nat → Prop
  | noConn : UidRun libs email [⟨.acquire .mySql, none⟩, ⟨.push l m, ()⟩] (.ret 0)
  | failed : res.ok = false → UidRun libs email
      [⟨.acquire .mySql, some conn⟩, ⟨.store conn (.selectGetUserUid email), .ok res⟩,
        ⟨.release .mySql conn, ()⟩] (.ret 0)
  | noRow : res.ok = true → res.rows = [] → UidRun libs email
      [⟨.acquire .mySql, some conn⟩, ⟨.store conn (.selectGetUserUid email), .ok res⟩]
      (.undef .outOfRange)
  | noTruth : res.ok = true → res.rows = cell :: rows → libs.truth cell = none →
      UidRun libs email
      [⟨.acquire .mySql, some conn⟩, ⟨.store conn (.selectGetUserUid email), .ok res⟩]
      (.undef .offEnd)
  | zero : res.ok = true → res.rows = cell :: rows → libs.truth cell = some false →
      UidRun libs email
      [⟨.acquire .mySql, some conn⟩, ⟨.store conn (.selectGetUserUid email), .ok res⟩,
        ⟨.release .mySql conn, ()⟩] (.ret 0)
  | answered : res.ok = true → res.rows = cell :: rows → libs.truth cell = some true →
      UidRun libs email
      [⟨.acquire .mySql, some conn⟩, ⟨.store conn (.selectGetUserUid email), .ok res⟩,
        ⟨.release .mySql conn, ()⟩] (.ret (toUInt64 (atol cell.data)))
  | selectThrew : UidRun libs email
      [⟨.acquire .mySql, some conn⟩, ⟨.store conn (.selectGetUserUid email), .error w⟩]
      (.undef .offEnd)

theorem uidRun_quiet (hr : UidRun libs email tr e) : replies tr = [] ∧ chatServers tr = [] := by
  cases hr <;> exact ⟨rfl, rfl⟩

theorem getUserUid_ok : Spec .any [] (getUserUid libs email) (UidRun libs email) := by
  simp only [getUserUid, spec_tryCatch, store, bind_assoc]
  refine .ask fun conn => ?_
  cases conn with
  | none => exact .call fun _ => .noConn
  | some conn =>
    refine .ask fun res => ?_
    cases res with
    | error w => exact .selectThrew
    | ok res =>
      simp only [Prog.ofExcept_ok, pure_bind]
      cases hok : res.ok with
      | false => exact .call fun _ => .failed hok
      | true =>
        simp only [if_true]
        cases hrows : res.rows with
        | nil => exact .noRow hok hrows
        | cons cell rows =>
          simp only [List.head?_cons, Prog.ofOption_some, pure_bind]
          cases htruth : libs.truth cell with
          | none => exact .noTruth hok hrows htruth
          | some b =>
            cases b with
            | false => exact .call fun _ => .zero hok hrows htruth
            | true => exact .call fun _ => .answered hok hrows htruth

end MysqlDao
end GateServer
