import GateServer.Operations

/-!
# The data-access layer

Six methods over the MySQL pool. Each takes a connection, queries the database inside a
`try`, and gives the connection back by hand on some of its exits. Running off the end of
a method is a fault: its caller uses the value.
-/

namespace GateServer

open Interact

def MySqlPool.getConnection : Act (Option Conn) := ask (.acquire .mySql)

def MySqlPool.releaseConnection (conn : Conn) : Act Unit := ask (.release .mySql conn)

namespace MysqlDao

/-- The common body of the two methods that call a procedure and select the variable with its
result. -/
def callProcedure (noConn : ErrorCodes) (call select : Query) (refused noRow : String)
    (answered : Int → String) (threw : String → String) : Act Int :=
  Prog.tryCatch
    (do
      match ← MySqlPool.getConnection with
      | none =>
        push .error "Failed to get MySQL connection"
        return noConn
      | some conn =>
        if !(← execute conn call) then
          push .error refused
          MySqlPool.releaseConnection conn
          return ErrorCodes.mySqlError
        let res ← store conn select
        match res.first with
        | some cell =>
          let result := atoi cell.data
          push .info (answered result)
          MySqlPool.releaseConnection conn
          return result
        | none =>
          push .error noRow
          MySqlPool.releaseConnection conn
          return ErrorCodes.rpcFail)
    fun what => do
      push .error (threw what)
      return ErrorCodes.rpcFail

def regUser (name email pwd : String) : Act Int :=
  callProcedure .rpcFail (.regUser name pwd email) .selectResult
    ("Failed to register user: " ++ name)
    ("Failed to get @result for user: " ++ name)
    (fun result => "User register result: " ++ toString result)
    (fun what => "Exception in RegUser: " ++ what)

def changePasswdWhenUserForgetPasswd (email uid newPasswd : String) : Act Int :=
  callProcedure .mySqlError (.changePasswd email uid newPasswd) .selectIsok
    ("Failed to change password for user: " ++ email)
    ("Failed to get @result for user: " ++ email)
    (fun result => "Password change result for user: " ++ email ++ " is " ++ toString result)
    (fun what => "Exception in Change_Passwd_When_User_Forget_Passwd: " ++ what)

/-- The uid of `user` is overwritten only after `@USER_UID` has been read. -/
def loginUser (pwd : String) (user : UserInfo) (isEmail : Int) : Act (Int × UserInfo) :=
  Prog.tryCatch
    (do
      match ← MySqlPool.getConnection with
      | none =>
        push .error "Failed to get MySQL connection"
        return (ErrorCodes.mySqlError.toInt, user)
      | some conn =>
        if !(← execute conn (.loginUser user.email pwd user.uid isEmail)) then
          push .error ("Failed to login user: " ++ user.email)
          MySqlPool.releaseConnection conn
          return (ErrorCodes.mySqlError.toInt, user)
        let res ← store conn .selectLoginResult
        match res.first with
        | some cell =>
          let result := atoi cell.data
          let uid ← store conn .selectUserUid
          let user := match uid.first with
            | some cell => { user with uid := toUInt64 (atoi cell.data) }
            | none => user
          push .info ("User login result: " ++ toString result)
          MySqlPool.releaseConnection conn
          return (result, user)
        | none => Prog.fault .offEnd)
    fun what => do
      push .error ("Exception in RegUser: " ++ what)
      return (ErrorCodes.mySqlError.toInt, user)

def existsUser (email uid : String) : Act Bool :=
  Prog.tryCatch
    (do
      match ← MySqlPool.getConnection with
      | none =>
        push .error "Failed to get MySQL connection"
        return false
      | some conn =>
        let res ← store conn (.selectUidByEmail email)
        match res.first with
        | some cell =>
          let uidValue := cell.data
          push .info ("Checking user existence for email: " ++ email)
          if uidValue = uid then
            push .info ("User exists: " ++ email)
            MySqlPool.releaseConnection conn
            return true
          else
            push .info ("User does not exist: " ++ email)
            MySqlPool.releaseConnection conn
            return false
        | none => Prog.fault .offEnd)
    fun what => do
      push .error ("Exception in ExistsUser: " ++ what)
      return false

def getUserIcon (uid : Int) : Act String :=
  Prog.tryCatch
    (do
      match ← MySqlPool.getConnection with
      | none =>
        push .error "Failed to get MySQL connection"
        return ""
      | some conn =>
        let result ← store conn (.selectUserIcon uid)
        MySqlPool.releaseConnection conn
        return (result.first.map Cell.data).getD "")
    fun _ => return ""

/-- `result[0]` is read without a test for a row. The exception handler prints and runs off the
end. -/
def getUserUid (libs : Libs) (email : String) : Act Nat :=
  Prog.tryCatch
    (do
      match ← MySqlPool.getConnection with
      | none =>
        push .error "Failed to get MySQL connection"
        return 0
      | some conn =>
        let result ← store conn (.selectGetUserUid email)
        if result.ok then
          let cell ← .ofOption .outOfRange result.rows.head?
          let truth ← match libs.truth cell with
            | some b => pure b
            | none => .done (.threw "Bad type conversion")
          if truth then
            let userId := toUInt64 (atol cell.data)
            MySqlPool.releaseConnection conn
            return userId
        MySqlPool.releaseConnection conn
        return 0)
    fun _ => Prog.fault .offEnd

end MysqlDao
end GateServer
