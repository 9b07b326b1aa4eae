import GateServer.MySqlDao
import GateServer.VarfiyGrpcClient

/-!
# The POST handlers

Each handler is given the request body and writes to the response body. The MySQL manager
is a parameter: `MySqlMgr.ofDao` is the repository's, and `MySqlMgr.anyAnswer` answers
every call with any result.
-/

namespace GateServer

open Interact

structure MySqlMgr where
  regUser : (name email pwd : String) → Act Int
  loginUser : (pwd : String) → UserInfo → (isEmail : Int) → Act (Int × UserInfo)
  existsUser : (email uid : String) → Act Bool
  changePasswdWhenUserForgetPasswd : (email uid newPasswd : String) → Act Int
  getUserIcon : (uid : Int) → Act String
  getUserId : (email : String) → Act Nat

def MySqlMgr.ofDao (libs : Libs) : MySqlMgr where
  regUser := MysqlDao.regUser
  loginUser := MysqlDao.loginUser
  existsUser := MysqlDao.existsUser
  changePasswdWhenUserForgetPasswd := MysqlDao.changePasswdWhenUserForgetPasswd
  getUserIcon := MysqlDao.getUserIcon
  getUserId := MysqlDao.getUserUid libs

def MySqlMgr.anyAnswer : MySqlMgr where
  regUser name email pwd := ask (.dao (.regUser name email pwd))
  loginUser pwd user isEmail := ask (.dao (.loginUser pwd user isEmail))
  existsUser email uid := ask (.dao (.existsUser email uid))
  changePasswdWhenUserForgetPasswd email uid newPasswd :=
    ask (.dao (.changePasswd email uid newPasswd))
  getUserIcon uid := ask (.dao (.getUserIcon uid))
  getUserId email := ask (.dao (.getUserUid email))

def RedisPool.getConnection : Act (Option Conn) := ask (.acquire .redis)

def RedisPool.returnConnection (conn : Conn) : Act Unit := ask (.release .redis conn)

/-- The handlers are lambdas that return `bool`; running off the end of one is a fault. -/
abbrev HttpHandler := (body : String) → Act Bool

namespace LogicalSystem

def text (srcRoot : Json.Value) (key : String) : Act String := .ofExcept (srcRoot.text key)

def field (srcRoot : Json.Value) (key : String) : Act Json.Value := .ofExcept (srcRoot.get key)

def number (srcRoot : Json.Value) (key : String) : Act Int :=
  .ofExcept (srcRoot.get key >>= Json.Value.asInt)

/-- The common beginning of two handlers' check of the verification code. -/
def lookupCode (email : String) : Act (Conn × String) := do
  let redisConn ← RedisPool.getConnection
  let redisConn ← .ofOption .nullPointer redisConn
  let getVarifyCode ← redisGet redisConn ("code_" ++ email)
  let code ← .ofOption .emptyOptional getVarifyCode
  return (redisConn, code)

variable (libs : Libs) (mgr : MySqlMgr)

def getVarifyCode : HttpHandler := fun body => do
  match libs.parse body with
  | none =>
    push .error ("Failed to parse JSON request body: " ++ body)
    write (.ofError .errorJosn)
    return true
  | some srcRoot =>
    let present : Bool ← .ofExcept (srcRoot.isMember "email")
    if !present then
      push .warn "Email field is missing in request body"
      write (.ofError .errorJosn)
      return true
    let email ← text srcRoot "email"
    push .info ("Processing verification code request for email: " ++ email)
    let rsp ← VarfiyGrpcClient.getVarifyCode email
    if rsp.error = ErrorCodes.success then
      push .info ("Verification code sent successfully to email: " ++ email)
    else
      push .error ("Failed to send verification code to email: " ++ email ++
        ", error code: " ++ toString rsp.error)
    let root := Json.Object.set [] "error" (.integer rsp.error)
    let root := root.set "email" (← field srcRoot "email")
    write root
    return true

/-- `/user_register`. There is no `return` after the reply to the result `-2`. -/
def userRegister : HttpHandler := fun body => do
  match libs.parse body with
  | none =>
    write (.ofError .errorJosn)
    return true
  | some srcRoot =>
    let email ← text srcRoot "email"
    let name ← text srcRoot "user"
    let pwd ← text srcRoot "passwd"
    let _confirm ← text srcRoot "confirm"
    let (redisConn, code) ← lookupCode (← text srcRoot "email")
    if code = "" then
      write (.ofError .varifyEXpired)
      RedisPool.returnConnection redisConn
      return true
    if code ≠ (← text srcRoot "varify_code") then
      write (.ofError .varifyError)
      RedisPool.returnConnection redisConn
      return true
    let usrExist ← redisExists redisConn ((← text srcRoot "email") ++ "_usr")
    if usrExist then
      write (.ofError .uerExist)
      RedisPool.returnConnection redisConn
      return true
    let result ← mgr.regUser name email pwd
    if result = 0 ∨ result = -1 then
      write (.ofError .mySqlError)
      RedisPool.returnConnection redisConn
      return true
    if result = -2 then
      write (.ofError .emailIsRegister)
      RedisPool.returnConnection redisConn
    let root := Json.Object.ofError .success
    let root := root.set "email" (← field srcRoot "email")
    let root := root.set "user" (← field srcRoot "user")
    let root := root.set "passwd" (← field srcRoot "passwd")
    let root := root.set "confirm" (← field srcRoot "confirm")
    let root := root.set "varify_code" (← field srcRoot "varify_code")
    let root := root.set "uid" (.integer result)
    write root
    RedisPool.returnConnection redisConn
    return true

/-- The second half of `/user_login`, after the fields of the request have been read. -/
def loginUser (email name pwd : String) (isEmail : Int) (users : UserInfo) : Act Bool := do
  let (result, users) ← mgr.loginUser pwd users isEmail
  if result = ErrorCodes.mySqlError then
    push .error ("Failed to login user: " ++ email)
    write (.ofError .mySqlError)
    return true
  if result = -1 then
    push .error ("Failed to login user: " ++ name)
    write ((Json.Object.ofError .userPasswdError).set "uid" (.integer users.uid))
    return true
  if result = -2 then
    push .error ("Failed to login user: " ++ name)
    write ((Json.Object.ofError .userNotExist).set "uid" (.integer users.uid))
    return true
  let stub ← GRPCServerPool.getStub
  let stub ← .ofOption .nullPointer stub
  let (status, respon) ← ask (.getChatServer stub (toInt32 users.uid))
  if status.ok then
    let root := Json.Object.ofError .success
    let root := root.set "uid" (.integer (← mgr.getUserId email))
    let root := root.set "token" (.string respon.token)
    let root := root.set "host" (.string respon.host)
    let root := root.set "port" (.string respon.port)
    GRPCServerPool.releaseStub stub
    write root
    push .info ("User login successfully: " ++ name)
    return true
  else
    GRPCServerPool.releaseStub stub
    write ((Json.Object.ofError .rpcFail).set "uid" (.integer users.uid))
    push .info ("User login successfully: " ++ name)
    return true

def userLogin : HttpHandler := fun body => do
  match libs.parse body with
  | none =>
    push .error ("Failed to parse JSON request body: " ++ body)
    write (.ofError .errorJosn)
    return true
  | some srcRoot =>
    let email ← text srcRoot "email"
    let name ← text srcRoot "user"
    let pwd ← text srcRoot "passwd"
    let isEmail ← number srcRoot "is_email"
    if isEmail = 0 then
      let userId := toUInt64 (atoi (← text srcRoot "uid"))
      loginUser mgr email name pwd isEmail { uid := userId, email := email, passwd := pwd }
    else
      loginUser mgr email name pwd isEmail { uid := 0, email := email, passwd := pwd }

def getVarifyCodeForgetPasswd : HttpHandler := fun body => do
  match libs.parse body with
  | none =>
    push .error ("Failed to parse JSON request body: " ++ body)
    write (.ofError .errorJosn)
    return true
  | some srcRoot =>
    let selectResult ← mgr.existsUser (← text srcRoot "email") (← text srcRoot "uid")
    if !selectResult then
      push .error ("User not exist: " ++ (← text srcRoot "email"))
      write (.ofError .userNotExist)
      return true
    push .info ("Processing verification code request for email: " ++ (← text srcRoot "email"))
    let rsp ← VarfiyGrpcClient.getVarifyCode (← text srcRoot "email")
    if rsp.error = ErrorCodes.success then
      push .info ("Verification code sent successfully to email: " ++ (← text srcRoot "email"))
      let root := Json.Object.ofError .success
      let root := root.set "email" (← field srcRoot "email")
      let root := root.set "uid" (← field srcRoot "uid")
      write root
      return true
    else
      push .error ("Failed to send verification code to email: " ++ (← text srcRoot "email") ++
        ", error code: " ++ toString rsp.error)
      write (Json.Object.set [] "error" (.integer rsp.error))
      return true

/-- `/submit_forget_passwd`. There is no `return` after the four tests of the result. -/
def submitForgetPasswd : HttpHandler := fun body => do
  match libs.parse body with
  | none =>
    push .error ("Failed to parse JSON request body: " ++ body)
    write (.ofError .errorJosn)
    return true
  | some srcRoot =>
    let email ← text srcRoot "email"
    let uid ← text srcRoot "uid"
    let newPasswd ← text srcRoot "new_passwd"
    let varifyCode ← text srcRoot "varify_code"
    let (redisConn, code) ← lookupCode email
    if code = "" then
      push .error "The varify code is not exist in redis or expired!"
      write (.ofError .varifyEXpired)
      RedisPool.returnConnection redisConn
      return true
    if code ≠ varifyCode then
      push .error "The varify code is not match!"
      write (.ofError .varifyError)
      RedisPool.returnConnection redisConn
      return true
    let result ← mgr.changePasswdWhenUserForgetPasswd email uid newPasswd
    if result = -2 then
      push .error ("User not exist: " ++ (← text srcRoot "email"))
      RedisPool.returnConnection redisConn
      write (.ofError .userNotExist)
      return true
    if result = -1 then
      push .error ("Failed to change password for user: " ++ (← text srcRoot "email"))
      RedisPool.returnConnection redisConn
      write (.ofError .mySqlError)
      return true
    if result = -3 then
      push .error ("Email is not match: " ++ (← text srcRoot "email"))
      RedisPool.returnConnection redisConn
      write (.ofError .emailIsNotMatch)
      return true
    if result = 1 then
      push .info ("Password changed successfully for user: " ++ (← text srcRoot "email"))
      let root := Json.Object.ofError .success
      let root := root.set "email" (← field srcRoot "email")
      let root := root.set "uid" (← field srcRoot "uid")
      RedisPool.returnConnection redisConn
      write root
      return true
    Prog.fault .offEnd

/-- The second half of `/get_user_icon`, which ends without a `return`. -/
def replyIcon (root : Json.Object) (userId : Nat) : Act Bool := do
  let iconData ← mgr.getUserIcon (toInt32 userId)
  if iconData ≠ "" then
    let root := root.set "error" (.integer ErrorCodes.success)
    let root := root.set "user_icon" (.string (libs.base64 iconData))
    write root
    Prog.fault .offEnd
  else
    let root := root.set "error" (.integer ErrorCodes.mySqlError)
    let root := root.set "user_icon" (.string "NULL")
    write root
    Prog.fault .offEnd

def getUserIcon : HttpHandler := fun body => do
  match libs.parse body with
  | none => return true
  | some src =>
    let isEmail ← number src "is_email"
    if isEmail ≠ 0 then
      let email ← text src "email"
      let userId ← mgr.getUserId email
      replyIcon libs mgr [] userId
    else
      let uidStr ← text src "uid"
      replyIcon libs mgr (Json.Object.set [] "uid" (.string uidStr)) (toUInt64 (atoi uidStr))

def postHandlers : List (String × HttpHandler) :=
  [("/get_varify_code", getVarifyCode libs),
   ("/user_register", userRegister libs mgr),
   ("/user_login", userLogin libs mgr),
   ("/get_varify_code_forget_passwd", getVarifyCodeForgetPasswd libs mgr),
   ("/submit_forget_passwd", submitForgetPasswd libs mgr),
   ("/get_user_icon", getUserIcon libs mgr)]

end LogicalSystem
end GateServer
