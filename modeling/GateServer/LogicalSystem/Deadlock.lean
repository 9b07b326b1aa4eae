import GateServer.Gateway.Climbing
import GateServer.LogicalSystem.Exits
import GateServer.MySqlDao.Connections

/-!
# Requests that use one pool inside another

Two handlers hold a Redis connection, and one a status stub, while the data-access layer
waits for a MySQL connection. As long as every answer leads a request to a place where it
gives back what it took, its use of the pools is nested.
-/

namespace GateServer.LogicalSystem

open Interact Gateway MysqlDao

inductive Request
  | userRegister (body : String)
  | userLogin (body : String)
  | submitForgetPasswd (body : String)
  | getUserIcon (body : String)

namespace Request

def body : Request → String
  | .userRegister body | .userLogin body | .submitForgetPasswd body | .getUserIcon body => body

def handle (libs : Libs) : Request → Act Bool
  | .userRegister body => LogicalSystem.userRegister libs (.ofDao libs) body
  | .userLogin body => LogicalSystem.userLogin libs (.ofDao libs) body
  | .submitForgetPasswd body => LogicalSystem.submitForgetPasswd libs (.ofDao libs) body
  | .getUserIcon body => LogicalSystem.getUserIcon libs (.ofDao libs) body

def CodeReadable (libs : Libs) (r : Request) : Prop :=
  ∀ src, libs.parse r.body = some src → ∃ given, src.text "varify_code" = .ok given

end Request

/-- What a handler requires besides: Redis does not throw and has the code, which can be
compared; a registration does not find the address taken, and a password change gives one of
the results that are tested. -/
@[simp] def CountsOn (libs : Libs) (r : Request) : Ev → Prop
  | ⟨.redisGet _ _, found⟩ => ∃ code, found = .ok (some code) ∧ (code = "" ∨ r.CodeReadable libs)
  | ⟨.redisExists _ _, exist⟩ => ∃ b, exist = .ok b
  | ⟨.execute _ (.changePasswd ..), done⟩ => done ≠ .ok false
  | ⟨.store _ .selectResult, .ok res⟩ => ∀ cell, res.first = some cell → atoi cell.data ≠ -2
  | ⟨.store _ .selectIsok, .ok res⟩ => ∃ cell, res.first = some cell ∧
      atoi cell.data ∈ [1, -1, -2, -3]
  | _ => True

def Smooth (libs : Libs) (r : Request) (ev : Ev) : Prop := LetsRelease libs ev ∧ CountsOn libs r ev

theorem smooth_answerable (libs : Libs) (r : Request) (op : Op) :
    ∃ a, Smooth libs r ⟨op, a⟩ ∧ Handed ⟨op, a⟩ := by
  cases op with
  | acquire pool => exact ⟨some 0, ⟨trivial, trivial⟩, fun _ => ⟨0, rfl⟩⟩
  | redisGet => exact ⟨.ok (some ""), ⟨trivial, "", rfl, .inl rfl⟩, trivial⟩
  | redisExists => exact ⟨.ok true, ⟨trivial, true, rfl⟩, trivial⟩
  | execute conn query => exact ⟨.ok true, ⟨⟨true, rfl⟩, by cases query <;> simp⟩, trivial⟩
  | store conn query =>
    cases query with
    | selectIsok =>
      exact ⟨.ok ⟨true, [⟨"1", false⟩]⟩, ⟨⟨_, rfl, trivial⟩, _, rfl, by decide⟩, trivial⟩
    | selectResult => exact ⟨.ok ⟨false, []⟩, ⟨⟨_, rfl, trivial⟩, nofun⟩, trivial⟩
    | _ =>
      obtain ⟨a, ha : LetsRelease libs _⟩ := letsRelease_answerable (.store conn _)
      exact ⟨a, ⟨ha, trivial⟩, trivial⟩
  | _ => exact ⟨Op.answer _, ⟨trivial, trivial⟩, trivial⟩

-- ---------------------------------------------------------------------------
-- The data-access layer
-- ---------------------------------------------------------------------------

section
variable {qs : List Pool} (hqs : ∀ q ∈ qs, rank q < rank .mySql)
include hqs

theorem callRun_nested (hr : CallRun noConn call select tr r)
    (hev : ∀ ev ∈ tr, LetsRelease libs ev) : Nested qs tr := by
  cases hr with
  | noConn => exact .null hqs (.quiet (by simp))
  | refused => exact .once (m := [_, _]) (t := []) hqs (by simp) (by simp)
  | answered => exact .once (m := [_, _, _]) (t := []) hqs (by simp) (by simp)
  | noRow => exact .once (m := [_, _, _]) (t := []) hqs (by simp) (by simp)
  | callThrew => simp at hev
  | selectThrew => simp at hev

theorem loginRun_nested (hr : LoginRun pwd user isEmail tr e)
    (hev : ∀ ev ∈ tr, LetsRelease libs ev) : Nested qs tr := by
  cases hr with
  | noConn => exact .null hqs (.quiet (by simp))
  | refused => exact .once (m := [_, _]) (t := []) hqs (by simp) (by simp)
  | answered => exact .once (m := [_, _, _, _]) (t := []) hqs (by simp) (by simp)
  | noRow hres => simp [Served, hres] at hev
  | callThrew => simp at hev
  | selectThrew => simp at hev
  | uidThrew => simp at hev

theorem iconRun_nested (hr : IconRun uid tr data) (hev : ∀ ev ∈ tr, LetsRelease libs ev) :
    Nested qs tr := by
  cases hr with
  | noConn => exact .null hqs (.quiet (by simp))
  | answered => exact .once (m := [_]) (t := []) hqs (by simp) (by simp)
  | selectThrew => simp at hev

theorem uidRun_nested (hr : UidRun libs email tr e) (hev : ∀ ev ∈ tr, LetsRelease libs ev) :
    Nested qs tr := by
  cases hr with
  | noConn => exact .null hqs (.quiet (by simp))
  | failed => exact .once (m := [_]) (t := []) hqs (by simp) (by simp)
  | noRow hok hrows => simp [Served, hok, hrows] at hev
  | noTruth hok hrows htruth => simp [Served, hok, hrows, htruth] at hev
  | zero => exact .once (m := [_]) (t := []) hqs (by simp) (by simp)
  | answered => exact .once (m := [_]) (t := []) hqs (by simp) (by simp)
  | selectThrew => simp at hev

end

theorem uidRun_returns (hr : UidRun libs email tr e) (hev : ∀ ev ∈ tr, LetsRelease libs ev) :
    ∃ uid, e = .ret uid := by
  cases hr with
  | noRow hok hrows => simp [Served, hok, hrows] at hev
  | noTruth hok hrows htruth => simp [Served, hok, hrows, htruth] at hev
  | selectThrew => simp at hev
  | _ => exact ⟨_, rfl⟩

theorem changeRun_result {r : Request}
    (hr : CallRun .mySqlError (.changePasswd email uid pwd) .selectIsok tr result)
    (hev : ∀ ev ∈ tr, Smooth libs r ev ∧ Handed ev) : result ∈ [1, -1, -2, -3] := by
  cases hr with
  | noConn => simp at hev
  | refused => simp [Smooth] at hev
  | answered hres =>
    obtain ⟨cell, hcell, hmem⟩ := (hev _ (.tail _ (.tail _ (.head _)))).1.2
    cases hres.symm.trans hcell
    exact hmem
  | noRow hres =>
    obtain ⟨cell, hcell, -⟩ := (hev _ (.tail _ (.tail _ (.head _)))).1.2
    cases hres.symm.trans hcell
  | callThrew => simp [Smooth] at hev
  | selectThrew => simp [Smooth] at hev

theorem regRun_result {r : Request}
    (hr : CallRun .rpcFail (.regUser name pwd email) .selectResult tr result)
    (hev : ∀ ev ∈ tr, Smooth libs r ev) : result ≠ -2 := by
  cases hr with
  | answered hres => exact (hev _ (.tail _ (.tail _ (.head _)))).2 _ hres
  | _ => decide

-- ---------------------------------------------------------------------------
-- The handlers
-- ---------------------------------------------------------------------------

theorem above_nothing (pool : Pool) : ∀ q ∈ ([] : List Pool), rank q < rank pool := nofun

theorem above_redis : ∀ q ∈ [Pool.redis], rank q < rank .mySql := by decide

theorem above_status : ∀ q ∈ [Pool.status], rank q < rank .mySql := by decide

theorem userRegister_nested (hr : Runs (userRegister libs (.ofDao libs) body) tr e)
    (hev : ∀ ev ∈ tr, Smooth libs (.userRegister body) ev) : Nested [] tr := by
  cases userRegister_ok.ends hr with
  | badJson => exact .quiet (by simp)
  | unreadable => exact .nil
  | noConn => exact .null (above_nothing _) .nil
  | getThrew => simp [Smooth] at hev
  | absent => simp [Smooth] at hev
  | expired => exact .once (m := [_, _]) (t := []) (above_nothing _) (by simp) (by simp)
  | codeUnreadable form hcode hv =>
    obtain ⟨code, hfound, hread⟩ := (hev _ (.tail _ (.head _))).2
    cases hfound
    obtain ⟨given, hgiven⟩ := (hread.resolve_left hcode) _ form.parse
    cases hv.symm.trans hgiven
  | mismatch => exact .once (m := [_, _]) (t := []) (above_nothing _) (by simp) (by simp)
  | existsThrew => simp [Smooth] at hev
  | exist => exact .once (m := [_, _, _]) (t := []) (above_nothing _) (by simp) (by simp)
  | regThrew _ _ _ hrun | regFault _ _ _ hrun =>
    obtain ⟨r, h, -⟩ := regUser_runs hrun
    cases h
  | refused _ _ _ hrun =>
    obtain ⟨r, -, h⟩ := regUser_runs hrun
    have hn := callRun_nested above_redis h fun ev hmem => (hev ev (by simp [hmem])).1
    exact .around (b := [_, _]) (a := [_]) (t := []) (above_nothing _) hn (by simp) (by simp)
      (by simp)
  | twice _ _ _ hrun =>
    obtain ⟨r, hret, h⟩ := regUser_runs hrun
    cases hret
    exact absurd rfl (regRun_result h fun ev hmem => hev ev (by simp [hmem]))
  | registered _ _ _ hrun =>
    obtain ⟨r, -, h⟩ := regUser_runs hrun
    have hn := callRun_nested above_redis h fun ev hmem => (hev ev (by simp [hmem])).1
    exact .around (b := [_, _]) (a := [_]) (t := []) (above_nothing _) hn (by simp) (by simp)
      (by simp)

theorem submitForgetPasswd_nested (hr : Runs (submitForgetPasswd libs (.ofDao libs) body) tr e)
    (hev : ∀ ev ∈ tr, Smooth libs (.submitForgetPasswd body) ev ∧ Handed ev) : Nested [] tr := by
  cases submitForgetPasswd_ok.ends hr with
  | badJson => exact .quiet (by simp)
  | unreadable => exact .nil
  | noConn => exact .null (above_nothing _) .nil
  | getThrew => simp [Smooth] at hev
  | absent => simp [Smooth] at hev
  | expired => exact .once (m := [_, _, _]) (t := []) (above_nothing _) (by simp) (by simp)
  | mismatch => exact .once (m := [_, _, _]) (t := []) (above_nothing _) (by simp) (by simp)
  | changeThrew _ _ hrun | changeFault _ _ hrun =>
    obtain ⟨r, h, -⟩ := changePasswd_runs hrun
    cases h
  | refused _ _ hrun | changed _ _ hrun =>
    obtain ⟨r, -, h⟩ := changePasswd_runs hrun
    have hn := callRun_nested above_redis h fun ev hmem => (hev ev (by simp [hmem])).1.1
    rw [List.append_assoc _ [_] [_]]
    exact .around (b := [_]) (a := [_]) (t := [_]) (above_nothing _) hn (by simp) (by simp)
      (by simp)
  | unnamed _ _ hrun herr hone =>
    obtain ⟨r, hret, h⟩ := changePasswd_runs hrun
    cases hret
    have hmem := changeRun_result h fun ev hmem => hev ev (by simp [hmem])
    simp only [List.mem_cons, List.not_mem_nil, or_false] at hmem
    rcases hmem with rfl | rfl | rfl | rfl
    · exact absurd rfl hone
    · cases herr
    · cases herr
    · cases herr

theorem userLogin_nested (hr : Runs (userLogin libs (.ofDao libs) body) tr e)
    (hev : ∀ ev ∈ tr, Smooth libs (.userLogin body) ev) : Nested [] tr := by
  have hlogin {tr' : Trace} {pwd user isEmail e'} (hsub : ∀ ev ∈ tr', ev ∈ tr)
      (hrun : Runs (MysqlDao.loginUser pwd user isEmail) tr' e') : Nested [] tr' :=
    loginRun_nested (above_nothing _) (MysqlDao.loginUser_ok.ends hrun)
      fun ev hmem => (hev ev (hsub ev hmem)).1
  have hid {tr' : Trace} {email e'} (hsub : ∀ ev ∈ tr', ev ∈ tr)
      (hrun : Runs (getUserUid libs email) tr' e') :
      Nested [.status] tr' ∧ ∃ uid, e' = .ret uid := by
    have hev' (ev : Ev) (hmem : ev ∈ tr') : LetsRelease libs ev := (hev ev (hsub ev hmem)).1
    exact ⟨uidRun_nested above_status (getUserUid_ok.ends hrun) hev',
      uidRun_returns (getUserUid_ok.ends hrun) hev'⟩
  cases userLogin_ok.ends hr with
  | badJson => exact .quiet (by simp)
  | unreadable => exact .nil
  | loginThrew _ hrun => exact hlogin (by simp) hrun
  | loginFault _ hrun => exact hlogin (by simp) hrun
  | rejected _ hrun =>
    exact ((hlogin (by simp +contextual) hrun).append (.quiet (by simp))).append (.quiet (by simp))
  | noStub _ hrun => exact (hlogin (by simp +contextual) hrun).append (.null (above_nothing _) .nil)
  | rpcFailed _ hrun =>
    have hn := hlogin (by simp +contextual) hrun
    simp only [List.append_assoc]
    exact hn.append (.once (m := [_]) (t := [_, _]) (above_nothing _) (by simp) (by simp))
  | idThrew _ _ _ _ _ _ hrun' | idFault _ _ _ _ _ _ hrun' =>
    obtain ⟨-, uid, h⟩ := hid (by simp +contextual) hrun'
    cases h
  | loggedIn _ hrun _ _ _ _ hrun' =>
    have hn := hlogin (by simp +contextual) hrun
    have hn' := (hid (by simp +contextual) hrun').1
    simp only [List.append_assoc]
    exact hn.append (.span (m := [_] ++ _) (t := [_, _]) (above_nothing _)
      (.append (.quiet (by simp)) hn') (.quiet (by simp)))

theorem getUserIcon_nested (hr : Runs (LogicalSystem.getUserIcon libs (.ofDao libs) body) tr e)
    (hev : ∀ ev ∈ tr, Smooth libs (.getUserIcon body) ev) : Nested [] tr := by
  have hid {tr' : Trace} {email e'} (hsub : ∀ ev ∈ tr', ev ∈ tr)
      (hrun : Runs (getUserUid libs email) tr' e') : Nested [] tr' :=
    uidRun_nested (above_nothing _) (getUserUid_ok.ends hrun)
      fun ev hmem => (hev ev (hsub ev hmem)).1
  have hstage {tr' : Trace} (hsub : ∀ ev ∈ tr', ev ∈ tr) (hid' : IdStage (.ofDao libs) tr') :
      Nested [] tr' := by
    rcases hid' with rfl | ⟨email, uid, hrun⟩
    · exact .nil
    · exact hid hsub hrun
  have hicon {tr' : Trace} {uid e'} (hsub : ∀ ev ∈ tr', ev ∈ tr)
      (hrun : Runs (MysqlDao.getUserIcon uid) tr' e') : Nested [] tr' := by
    obtain ⟨data, -, h⟩ := getUserIcon_runs hrun
    exact iconRun_nested (above_nothing _) h fun ev hmem => (hev ev (hsub ev hmem)).1
  cases LogicalSystem.getUserIcon_ok.ends hr with
  | badJson => exact .nil
  | unreadable => exact .nil
  | idThrew _ hrun => exact hid (by simp) hrun
  | idFault _ hrun => exact hid (by simp) hrun
  | iconThrew _ hid' hrun =>
    exact (hstage (by simp +contextual) hid').append (hicon (by simp +contextual) hrun)
  | iconFault _ hid' hrun =>
    exact (hstage (by simp +contextual) hid').append (hicon (by simp +contextual) hrun)
  | answered _ hid' hrun =>
    exact ((hstage (by simp +contextual) hid').append (hicon (by simp +contextual) hrun)).append
      (.quiet (by simp))

theorem Request.nested (r : Request) (hr : Runs (r.handle libs) tr e)
    (hev : ∀ ev ∈ tr, Smooth libs r ev ∧ Handed ev) : Nested [] tr := by
  cases r with
  | userRegister body => exact userRegister_nested hr fun ev hmem => (hev ev hmem).1
  | userLogin body => exact userLogin_nested hr fun ev hmem => (hev ev hmem).1
  | submitForgetPasswd body => exact submitForgetPasswd_nested hr hev
  | getUserIcon body => exact getUserIcon_nested hr fun ev hmem => (hev ev hmem).1

/-- For any requests and any sizes of the pools, the requests that have begun and not finished
never all wait for a connection or a stub. -/
theorem requests_never_deadlocked {g : Gateway Accounts} {jobs : List Request}
    (hopen : ∀ pool, pool ≠ .varify → Opened pool g ∧ (g.pools pool).conns ≠ [])
    (hr : (waiting (running Accounts) bells).Reachable Machine.Any
      (.start (Request.handle libs) g jobs) c)
    (hf : AllFit (Smooth libs) c.config) : ¬ Deadlocked (running Accounts) bells c :=
  never_deadlocked (smooth_answerable libs) (fun r _ _ => r.nested) hopen hr hf

def iconLibs : Libs := .ofBodies [("i", .object [("uid", .string "7")])]

def iconLent : Act Bool :=
  match (Request.getUserIcon "i").handle iconLibs with
  | .call (.acquire .mySql) next => next (some 0)
  | p => p

def iconWaits (standing : Standing Pool) :
    Monitor (Gateway Nat) (Worker Ans Request Bool Pool) :=
  ⟨(opened [0]).setPool .mySql ⟨[], false⟩,
    [⟨⟨.getUserIcon "i", [⟨.acquire .mySql, some 0⟩], iconLent⟩, .runs⟩,
      ⟨.start (Request.handle iconLibs) (.getUserIcon "i"), standing⟩]⟩

theorem iconWaits_reachable : (waiting (running Nat) bells).Reachable Machine.Any
    (.start (Request.handle iconLibs) (opened [0]) [.getUserIcon "i", .getUserIcon "i"])
    (iconWaits (.parked .mySql)) := by
  have hlent : (waiting (running Nat) bells).Reachable Machine.Any
      (.start (Request.handle iconLibs) (opened [0]) [.getUserIcon "i", .getUserIcon "i"])
      (iconWaits .runs) :=
    Machine.Reachable.start.quiet [] [_] (.call trivial (.get MySqlPool.Gets.front)) trivial
  refine hlent.quiet [_] [] (.block trivial rfl fun a g' ha => ?_) trivial
  cases ha with
  | @get _ _ p hg =>
    have hempty : MySqlPool.Gets ⟨[], false⟩ a p := hg
    cases hempty
  | quiet h => exact h

theorem requests_never_deadlocked_waiting :
    ¬ Deadlocked (running Nat) bells (iconWaits (.parked .mySql)) := by
  refine requests_never_deadlocked ?_ iconWaits_reachable ?_
  · exact fun pool _ => ⟨rfl, nofun⟩
  · rintro t ht ev hev
    rcases List.mem_map.mp ht with ⟨u, hu, rfl⟩
    simp only [iconWaits, List.mem_cons, List.not_mem_nil, or_false] at hu
    rcases hu with rfl | rfl
    · cases List.mem_singleton.mp hev
      exact ⟨trivial, trivial⟩
    · cases hev

end GateServer.LogicalSystem
