import GateServer.HttpConnection
import GateServer.Interact.Hosting
import GateServer.LogicalSystem.Starvation
import GateServer.Startup

/-!
# Requests in any interleaving

For any reads from the connections and any interleaving of their handling, the gateway
behaves as for the handlers of the POST requests alone.
-/

namespace GateServer.HttpConnection

open Interact LogicalSystem

variable {libs : Libs} {iterate : Params → Params}

structure Read where
  ec : Option String
  request : HttpRequest

namespace Read

def handle (libs : Libs) (iterate : Params → Params) (read : Read) : HttpAct Unit :=
  onRead libs iterate read.ec read.request

/-- The call of a handler that the request leads to, if any. -/
def post? (libs : Libs) (read : Read) : Option (Post libs) :=
  if read.ec = none ∧ read.request.method = .post then
    match h : (postHandlers libs (.ofDao libs)).lookup read.request.target.text with
    | none => none
    | some handler => some ⟨read.request.target.text, handler, read.request.body, mem_of_lookup h⟩
  else none

theorem post?_of_ne {read : Read} (h : ¬ (read.ec = none ∧ read.request.method = .post)) :
    post? libs read = none := if_neg h

theorem post?_unregistered {request : HttpRequest}
    (h : (postHandlers libs (.ofDao libs)).lookup request.target.text = none) :
    post? libs ⟨none, request⟩ = none := by
  unfold post?
  split
  · split
    · rfl
    · rename_i handler hsome
      cases hsome.symm.trans h
  · rfl

theorem post?_registered {request : HttpRequest} (hm : request.method = .post)
    (h : (postHandlers libs (.ofDao libs)).lookup request.target.text = some handler) :
    post? libs ⟨none, request⟩ =
      some ⟨request.target.text, handler, request.body, mem_of_lookup h⟩ := by
  unfold post?
  rw [if_pos ⟨rfl, hm⟩]
  split
  · rename_i hnone
    cases hnone.symm.trans h
  · rename_i handler' hsome
    cases hsome.symm.trans h
    rfl

end Read

/-- Responses are written, and the timer is waited for, after the handler has returned. -/
def hosting : Hosting Ans HttpAns where
  put := .op
  back _ a := a
  Quiet
    | .op (.push ..) | .op (.log ..) | .remoteEndpoint => True
    | _ => False
  Late
    | .text _ | .writeResponse _ | .asyncWait => True
    | _ => False
  quiet_not_late op := by
    cases op <;> simp
  put_not_late _ := id

inductive Acts : Gateway Accounts → HttpEv → Gateway Accounts → Prop
  | op : Gateway.Acts g ⟨op, a⟩ g' → Acts g ⟨.op op, a⟩ g'
  | client : (∀ op, ev.op ≠ .op op) → Acts g ev g

def arena (Accounts : Type) : Arena HttpAns (Gateway Accounts) where
  act := Acts
  env := Gateway.Closes

theorem simulates : hosting.Simulates (arena Accounts) (Gateway.arena Accounts) where
  quiet {op g a g'} hop ha := by
    cases ha with
    | client => rfl
    | op ha =>
      cases ha with
      | quiet => rfl
      | _ => exact (hop.elim id id : False).elim
  call ha := by
    cases ha with
    | op ha => exact ha
    | client h => exact absurd rfl (h _)
  env := id

-- ---------------------------------------------------------------------------
-- What is read
-- ---------------------------------------------------------------------------

abbrev Alone (q : HttpAct β) : Prop := Hosting.Hosts.Empty hosting q

theorem printParams_alone (i : Nat) (params : Params) : Alone (printParams i params) := by
  induction params generalizing i with
  | nil => exact .ends
  | cons p rest ih => exact .late trivial nofun fun _ => .quiet trivial fun _ => ih (i + 1)

theorem handleGet_alone (path : String) (params : Params) :
    Alone (handleGet iterate path params) := by
  unfold handleGet
  cases hl : (getHandlers iterate).lookup path with
  | none => exact .quiet trivial fun _ => .ends
  | some handler =>
    obtain ⟨-, rfl⟩ : path = "/get_test" ∧ handler = getTest iterate := by
      simpa [getHandlers] using mem_of_lookup hl
    refine .quiet trivial fun _ => .quiet trivial fun _ => .late trivial nofun fun _ => ?_
    exact (printParams_alone 0 (iterate params)).empty_bind nofun fun _ => .ends

theorem respond_alone (found : Bool) (response response' : HttpResponse) :
    Alone ((if !found then writeNotFound response else writeResponse response') >>=
      fun _ => checkDeadline) := by
  cases found with
  | false =>
    refine .late trivial nofun fun _ => .late trivial nofun fun _ => ?_
    exact .late trivial nofun fun _ => .ends
  | true => exact .late trivial nofun fun _ => .late trivial nofun fun _ => .ends

theorem handlePost_hosts (request : HttpRequest) (hm : request.method = .post)
    {k : Bool → HttpAct Unit} (hk : ∀ found, Alone (k found)) :
    hosting.Hosts (handlePost libs request.target.text request.body >>= k)
      ((Read.post? libs ⟨none, request⟩).map Post.handle) := by
  unfold handlePost
  cases hl : (postHandlers libs (.ofDao libs)).lookup request.target.text with
  | none =>
    rw [Read.post?_unregistered hl]
    refine .quiet trivial fun _ => .quiet trivial fun ip => ?_
    cases ip with
    | error w => exact .ends
    | ok ip => exact .quiet trivial fun _ => (hk false).returned nofun
  | some handler =>
    rw [Read.post?_registered hm hl]
    refine .quiet trivial fun _ => .quiet trivial fun ip => ?_
    cases ip with
    | error w => exact .ends
    | ok ip =>
      refine .quiet trivial fun _ => ?_
      show hosting.Hosts (((handler request.body).http >>= fun _ => pure true) >>= k) _
      rw [bind_assoc]
      exact .lift_bind (handler request.body) fun _ => hk true

theorem handle_hosts (read : Read) :
    hosting.Hosts (read.handle libs iterate) ((read.post? libs).map Post.handle) := by
  obtain ⟨ec, request⟩ := read
  unfold Read.handle onRead handlereq
  refine .tryCatch ?_ fun _ _ => .ends
  cases ec with
  | some w => exact .ends
  | none =>
  cases hm : request.method with
  | other name =>
    rw [Read.post?_of_ne (by simp [hm])]
    simp only [Option.isSome_none, Bool.false_eq_true, reduceCtorEq, if_false]
    exact .late trivial nofun fun _ => .ends
  | get =>
    rw [Read.post?_of_ne (by simp [hm])]
    simp only [Option.isSome_none, Bool.false_eq_true, reduceCtorEq, if_false, if_true,
      bind_pure_unit, bind_assoc]
    refine (handleGet_alone _ _).empty_bind nofun fun found => ?_
    exact (respond_alone found _ _).returned nofun
  | post =>
    simp only [Option.isSome_none, Bool.false_eq_true, reduceCtorEq, if_false, if_true,
      bind_pure_unit, bind_assoc]
    exact handlePost_hosts request hm fun found => respond_alone found _ _

-- ---------------------------------------------------------------------------
-- Side by side
-- ---------------------------------------------------------------------------

/-- For any reads in any interleaving, the POST requests are a run of the handlers alone, and
no response is written before its handler has returned. -/
theorem reads_as_posts {g : Gateway Accounts} {reads : List Read}
    (hr : Reachable (arena Accounts) (.start (Read.handle libs iterate) g reads) c) :
    ∃ posts, List.Forall₂ (hosting.Carries (Read.post? libs)) c.threads posts ∧
      Reachable (Gateway.arena Accounts) (.start Post.handle g (reads.filterMap (Read.post? libs)))
        ⟨c.world, posts.reduceOption⟩ :=
  hr.hosted handle_hosts simulates

def registerTarget : Bytes := [47, 117, 115, 101, 114, 95, 114, 101, 103, 105, 115, 116, 101, 114]

def registerRead : Read := ⟨none, ⟨.post, registerTarget, 11, codeBody⟩⟩

def putRead : Read := ⟨none, ⟨.other "PUT", registerTarget, 11, ""⟩⟩

def registerHist : HttpTrace :=
  [⟨.op (.push .debug ("Handling POST request for URL: " ++ registerTarget.text)), ()⟩,
    ⟨.remoteEndpoint, .ok "127.0.0.1"⟩, ⟨.op (.push .info ("Request IP:" ++ "127.0.0.1")), ()⟩,
    ⟨.op (.acquire .redis), none⟩]

theorem register_reachable : Reachable (arena Nat)
    (.start (Read.handle codeLibs id) (Gateway.opened []) [putRead, registerRead])
    ⟨((Gateway.opened []).setPool .redis ⟨[], true⟩).setPool .redis ⟨[], true⟩,
      [⟨putRead, [⟨.asyncWait, ()⟩], .done (.ret ())⟩,
        ⟨registerRead, registerHist, .done (.undef .nullPointer)⟩]⟩ := by
  have hclosed : Reachable (arena Nat)
      (.start (Read.handle codeLibs id) (Gateway.opened []) [putRead, registerRead])
      ⟨(Gateway.opened []).setPool .redis ⟨[], true⟩,
        [] ++ ⟨putRead, [], putRead.handle codeLibs id⟩ ::
          [⟨registerRead, [], registerRead.handle codeLibs id⟩]⟩ :=
    Reachable.start.step (.env (.close RedisPool.Closes.store))
  have hput := hclosed.goOn [] _ (.call () .refl) (.cons (Acts.client (by simp)) .nil)
  refine hput.goOn [_] [] (.call _ (.call _ (.call _ (.call _ .refl)))) ?_
  refine .cons (Acts.op (.quiet trivial)) (.cons (Acts.client (by simp)) ?_)
  refine .cons (Acts.op (.quiet trivial)) ?_
  exact .cons (Acts.op (.get RedisPool.Gets.stopped)) .nil

theorem reads_as_posts_register : ∃ posts : List (Option (Interact.Thread Ans (Post codeLibs)
      Bool)),
    List.Forall₂ (hosting.Carries (Read.post? codeLibs))
      [⟨putRead, [⟨.asyncWait, ()⟩], (.done (.ret ()) : HttpAct Unit)⟩,
        ⟨registerRead, registerHist, .done (.undef .nullPointer)⟩] posts ∧
    Reachable (Gateway.arena Nat)
      (.start Post.handle (Gateway.opened []) [.userRegister codeLibs codeBody])
      ⟨((Gateway.opened []).setPool .redis ⟨[], true⟩).setPool .redis ⟨[], true⟩,
        posts.reduceOption⟩ :=
  reads_as_posts register_reachable

-- ---------------------------------------------------------------------------
-- Without Redis
-- ---------------------------------------------------------------------------

/-- A well-formed request for one of the two routes that look up a code. -/
structure Read.NeedsCode (libs : Libs) (read : Read) : Prop where
  ec : read.ec = none
  post : read.request.method = .post
  path : read.request.target.text ∈ codePaths
  json : (libs.parse read.request.body).isSome

theorem Read.NeedsCode.inside {read : Read} (h : read.NeedsCode libs) :
    ∃ post, read.post? libs = some post ∧ LogicalSystem.NeedsCode post := by
  obtain ⟨ec, request⟩ := read
  obtain rfl := h.ec
  have hroute : ∃ handler,
      (postHandlers libs (.ofDao libs)).lookup request.target.text = some handler := by
    have hpath := h.path
    simp only [codePaths, List.mem_cons, List.not_mem_nil, or_false] at hpath
    rcases hpath with hpath | hpath <;> rw [hpath] <;> exact ⟨_, rfl⟩
  obtain ⟨handler, hlookup⟩ := hroute
  exact ⟨_, post?_registered h.post hlookup, h.path, h.json⟩

/-- If the server runs although no attempt to connect to Redis has succeeded, no registration
and no new password ever gets a response. -/
theorem unreachable_redis_unanswered (hmain : Runs Startup.main tr e)
    (hrun : ⟨.run redispool, ran⟩ ∈ tr)
    (hdown : ∀ options made, (options, made) ∈ Startup.attempts tr → made ≠ .ok ())
    {g : Gateway Accounts} {reads : List Read} (hg : (g.pools .redis).conns = redispool)
    (hr : Reachable (arena Accounts) (.start (Read.handle libs iterate) g reads) c) :
    (c.world.pools .redis).conns = [] ∧
    ∀ t ∈ c.threads, t.job.NeedsCode libs → written t.hist = [] := by
  obtain ⟨posts, hcarries, hposts⟩ := hr.hosted handle_hosts simulates
  have hempty : (g.pools .redis).conns = [] :=
    hg.trans ((Startup.main_ok.ends hmain).no_connection hrun hdown)
  obtain ⟨hworld, hstarve⟩ := posts_starve hempty hposts
  refine ⟨hworld, fun t ht hneeds => ?_⟩
  obtain ⟨post, hpost, hcode⟩ := hneeds.inside
  obtain ⟨inside, hmem, rfl, -, hlate⟩ := exists_inside hcarries ht hpost
  -- the handler does not return, so nothing has been written behind it
  refine List.filterMap_eq_nil_iff.mpr fun ev hev => ?_
  obtain ⟨op, a⟩ := ev
  cases op with
  | writeResponse response =>
    obtain ⟨r, hreturns⟩ := hlate _ hev trivial
    exact absurd hreturns ((hstarve inside hmem hcode).2 r)
  | _ => rfl

def downIni : Ptree :=
  .node "" [("Redis", .node "" [("port", .node "6379" []), ("pool_size", .node "1" [])])]

def downTrace : List Startup.Ev :=
  [⟨.connectMySql, .error "down"⟩, ⟨.constructs .logSystem .currentPath, .ok "/srv"⟩,
    ⟨.constructs .logSystem (.pathExists "/srv/logs"), .ok true⟩,
    ⟨.init (.pathExists "logs"), .ok true⟩, ⟨.info "GateServer starting...", ()⟩,
    ⟨.runLogQueue, .ok ()⟩, ⟨.readIni, .ok downIni⟩, ⟨.connectRedis ⟨"", 6379, ""⟩, .error "x"⟩,
    ⟨.push .error "Failed to create Redis connection: x", ()⟩,
    ⟨.push .info "Redis connection pool initialized with 0 connections", ()⟩,
    ⟨.openSignals, .ok ()⟩, ⟨.listen 0, .ok ()⟩,
    ⟨.constructs .asioIOServicePool (.startThread 0), .ok ()⟩,
    ⟨.constructs .asioIOServicePool (.startThread 1), .ok ()⟩, ⟨.strat, .ok ()⟩, ⟨.run [], .ok ()⟩]

theorem downTrace_runs : Runs Startup.main downTrace (.ret 0) := by
  refine .call _ (.call _ (.call _ (.call _ (.call _ (.call _ (.call _ (.call _ ?_)))))))
  exact .call _ (.call _ (.call _ (.call _ (.call _ (.call _ (.call _ (.call _ .refl)))))))

theorem unreachable_redis_unanswered_register : written registerHist = [] := by
  have hdown : ∀ options made, (options, made) ∈ Startup.attempts downTrace → made ≠ .ok () := by
    simp [downTrace]
  have hrun : ⟨.run [], .ok ()⟩ ∈ downTrace := by simp [downTrace]
  refine (unreachable_redis_unanswered downTrace_runs hrun hdown rfl register_reachable).2
    ⟨registerRead, registerHist, .done (.undef .nullPointer)⟩ (.tail _ (.head _))
    ⟨rfl, rfl, ?_, rfl⟩
  exact .head _

end GateServer.HttpConnection
