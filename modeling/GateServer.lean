import GateServer.Interact.Program
import GateServer.Interact.Lockstep
import GateServer.Interact.Interleave
import GateServer.Interact.Lending
import GateServer.Interact.Tally
import GateServer.Interact.Custody
import GateServer.Interact.Monitor
import GateServer.Interact.Expansion
import GateServer.Interact.Refinement
import GateServer.Interact.Recording
import GateServer.Interact.Passing
import GateServer.Interact.Relying
import GateServer.Interact.Blind
import GateServer.Interact.Hosting
import GateServer.Interact.Waiting
import GateServer.Interact.Attending
import GateServer.Interact.Insider
import GateServer.Interact.Settling
import GateServer.Interact.Timed
import GateServer.Interact.Pieces
import GateServer.Interact.RoundRobin
import GateServer.Const
import GateServer.Json
import GateServer.Operations
import GateServer.RedisPool
import GateServer.MySqlPool
import GateServer.MySqlPool.Waking
import GateServer.GRPCServerPool
import GateServer.GRPCServerPool.Waking
import GateServer.RPConPool
import GateServer.RPConPool.Steps
import GateServer.LogQueue
import GateServer.LogQueue.Waking
import GateServer.Main
import GateServer.RedisMgr
import GateServer.RedisMgr.Connect
import GateServer.RedisMgr.Owners
import GateServer.AsioIOServicePool
import GateServer.Singleton
import GateServer.Singleton.Relock
import GateServer.ConfiMgr
import GateServer.Startup
import GateServer.Gateway
import GateServer.Gateway.Pools
import GateServer.Gateway.Climbing
import GateServer.Gateway.Calls
import GateServer.VarfiyGrpcClient
import GateServer.MySqlDao
import GateServer.MySqlDao.Exits
import GateServer.MySqlDao.Connections
import GateServer.MySqlDao.Sessions
import GateServer.LogicalSystem
import GateServer.LogicalSystem.Exits
import GateServer.LogicalSystem.Throws
import GateServer.LogicalSystem.Faults
import GateServer.LogicalSystem.Connections
import GateServer.LogicalSystem.Verification
import GateServer.LogicalSystem.Registration
import GateServer.LogicalSystem.Login
import GateServer.LogicalSystem.Identity
import GateServer.LogicalSystem.Answers
import GateServer.LogicalSystem.CodeDelivery
import GateServer.LogicalSystem.Deadlock
import GateServer.LogicalSystem.Decisions
import GateServer.LogicalSystem.Ids
import GateServer.LogicalSystem.Passwords
import GateServer.LogicalSystem.Conservation
import GateServer.LogicalSystem.Updates
import GateServer.LogicalSystem.Secrecy
import GateServer.LogicalSystem.OffRedis
import GateServer.LogicalSystem.Starvation
import GateServer.LogSystem
import GateServer.LogSystem.Writing
import GateServer.LogSystem.Queued
import GateServer.HttpConnection
import GateServer.HttpConnection.Answers
import GateServer.HttpConnection.Params
import GateServer.HttpConnection.UrlEncode
import GateServer.HttpConnection.Target
import GateServer.HttpConnection.GetTest
import GateServer.HttpConnection.Serving
import GateServer.Server
import GateServer.Server.Deadline
import GateServer.Server.Listening
import GateServer.Server.Coverage
