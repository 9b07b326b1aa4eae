import GateServer.HttpConnection
import GateServer.Interact.Timed

/-!
# The server and its connections

`strat` constructs an `HttpConnection` and posts the `async_accept` for its socket, so a
connection exists, with its timer set, before its client. Each event of a connection is
one step: the completion handlers run on the one thread of the connection's `io_context`.
A handler's step is at the time at which it ends.
-/

namespace GateServer

open Interact HttpConnection

/-- `steady_clock` counts nanoseconds. -/
def seconds (n : Nat) : Nat := n * 1000000000

/-- The operations in progress for a connection, and when it was accepted and closed. -/
structure Connection where
  deadline : Timer
  accepting : Bool
  accepted : Option Nat
  starts : Nat
  reading : Bool
  writing : Nat
  closed : List Nat
  deriving DecidableEq, Repr

/-- An exception in `start` skips the `strat` after it; one in `strat` precedes `async_accept`.
Both are caught and ignored. -/
inductive ConnectionEvent
  | acceptFailed (posts : Bool)
  | accepted (posts : Bool)
  | startThrew
  | read (ec : Option String) (request : HttpRequest) (tr : HttpTrace)
  | written
  | expired
  | deadline (begun : Nat)

def waits (tr : HttpTrace) : Nat := tr.countP fun ev => ev.op matches .asyncWait

namespace Connection

/-- The state after `strat`: `deadline_` expires 60 seconds after the construction. -/
def posted (now : Nat) : Connection where
  deadline := .set (now + seconds 60)
  accepting := true
  accepted := none
  starts := 0
  reading := false
  writing := 0
  closed := []

inductive Moves (libs : Libs) (iterate : Params → Params) (now : Nat) :
    Connection → ConnectionEvent → Connection → Prop
  | acceptFailed : conn.accepting = true → Moves libs iterate now conn (.acceptFailed posts)
      { conn with accepting := false }
  | accepted : conn.accepting = true → Moves libs iterate now conn (.accepted posts)
      { conn with accepting := false, accepted := some now, starts := conn.starts + 1,
                  reading := true }
  | startThrew : conn.accepting = true → Moves libs iterate now conn .startThrew
      { conn with accepting := false, accepted := some now, starts := conn.starts + 1 }
  | read : conn.reading = true → Runs (onRead libs iterate ec request) tr e → e.Defined →
      Moves libs iterate now conn (.read ec request tr)
      { conn with reading := false, writing := conn.writing + (written tr).length,
                  deadline := conn.deadline.wait now (waits tr) }
  | written : conn.writing = n + 1 → Moves libs iterate now conn .written
      { conn with writing := n, deadline := conn.deadline.cancel }
  | expired : conn.deadline.expiry ≤ now → Moves libs iterate now conn .expired
      { conn with deadline := conn.deadline.expire }
  | deadline : begun ∈ conn.deadline.due → Moves libs iterate now conn (.deadline begun)
      { conn with deadline := conn.deadline.run begun, closed := conn.closed ++ [now] }

end Connection

namespace Server

def posts : ConnectionEvent → Bool
  | .acceptFailed posts | .accepted posts => posts
  | _ => false

def connections (libs : Libs) (iterate : Params → Params) : Kind Connection ConnectionEvent where
  born := .posted
  next := Connection.Moves libs iterate
  bears := posts

def strat (libs : Libs) (iterate : Params → Params) (now : Nat) : Crowd Connection :=
  (connections libs iterate).first now

end Server
end GateServer
