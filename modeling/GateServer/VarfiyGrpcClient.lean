import GateServer.Operations

/-!
# The gRPC clients

The verification service is reached through the stubs of an `RPConPool`, the
status service through those of `gRPCServerPool`.
-/

namespace GateServer

open Interact

def RPConPool.getConnection : Act (Option Conn) := ask (.acquire .varify)

def RPConPool.returnConnection (stub : Conn) : Act Unit := ask (.release .varify stub)

/-- A null stub and a failed call both give a default response. -/
def VarfiyGrpcClient.getVarifyCode (email : String) : Act GetVarifyRsp := do
  match ← RPConPool.getConnection with
  | none =>
    log .error "No available gRPC connection."
    return {}
  | some stub =>
    let (status, response) ← ask (.getVarifyCode stub email)
    RPConPool.returnConnection stub
    if status.ok then
      return response
    else
      log .error ("RPC failed: " ++ status.errorMessage)
      return {}

-- ---------------------------------------------------------------------------
-- How GetVarifyCode ends
-- ---------------------------------------------------------------------------

inductive VarifyRun (email : String) : Trace → GetVarifyRsp → Prop
  | noStub : VarifyRun email [⟨.acquire .varify, none⟩, ⟨.log l m, ()⟩] {}
  | sent : status.ok = true → VarifyRun email
      [⟨.acquire .varify, some stub⟩, ⟨.getVarifyCode stub email, (status, rsp)⟩,
        ⟨.release .varify stub, ()⟩] rsp
  | failed : status.ok = false → VarifyRun email
      [⟨.acquire .varify, some stub⟩, ⟨.getVarifyCode stub email, (status, rsp)⟩,
        ⟨.release .varify stub, ()⟩, ⟨.log l m, ()⟩] {}

theorem varifyClient_ok :
    Spec .any [] (VarfiyGrpcClient.getVarifyCode email) (Returns (VarifyRun email)) := by
  unfold VarfiyGrpcClient.getVarifyCode
  refine .ask fun stub => ?_
  cases stub with
  | none => exact .call fun _ => .noStub
  | some stub =>
    refine .ask fun rsp => ?_
    obtain ⟨status, rsp⟩ := rsp
    refine .ask fun _ => ?_
    cases hok : status.ok with
    | false => exact .call fun _ => .failed hok
    | true => exact .sent hok

theorem varifyClient_runs (h : Runs (VarfiyGrpcClient.getVarifyCode email) tr e) :
    ∃ rsp, e = .ret rsp ∧ VarifyRun email tr rsp :=
  (varifyClient_ok.ends h).exists

theorem varifyRun_replies (hr : VarifyRun email tr rsp) : replies tr = [] := by
  cases hr <;> rfl

namespace GRPCServerPool

def getStub : Act (Option Conn) := ask (.acquire .status)

def releaseStub (stub : Conn) : Act Unit := ask (.release .status stub)

end GRPCServerPool
end GateServer
