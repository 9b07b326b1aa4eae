import GateServer.Gateway
import GateServer.LogicalSystem.Exits

/-!
# The Redis connections of the handlers

Two handlers take a Redis connection and give it back by hand. They are borrowers as long
as the answers they get lead them to a branch that gives it back.
-/

namespace GateServer.LogicalSystem

open Interact Gateway

inductive CodeRequest
  | userRegister (body : String)
  | submitForgetPasswd (body : String)

namespace CodeRequest

def body : CodeRequest → String
  | .userRegister body | .submitForgetPasswd body => body

def handle (libs : Libs) (mgr : MySqlMgr) : CodeRequest → Act Bool
  | .userRegister body => LogicalSystem.userRegister libs mgr body
  | .submitForgetPasswd body => LogicalSystem.submitForgetPasswd libs mgr body

def CodeReadable (libs : Libs) (r : CodeRequest) : Prop :=
  ∀ src, libs.parse r.body = some src → ∃ given, src.text "varify_code" = .ok given

end CodeRequest

/-- The answers after which a request releases its connection once: Redis does not throw and
has the code, the code can be compared, and the result of the data layer is tested by a branch
with one release. -/
@[simp] def LetsReturn (libs : Libs) (r : CodeRequest) : Ev → Prop
  | ⟨.redisGet _ _, found⟩ => ∃ code, found = .ok (some code) ∧ (code = "" ∨ r.CodeReadable libs)
  | ⟨.redisExists _ _, exist⟩ => ∃ b, exist = .ok b
  | ⟨.dao (.regUser _ _ _), result⟩ => @Ne Int result (-2)
  | ⟨.dao (.changePasswd _ _ _), result⟩ => @Membership.mem Int _ _ [1, -1, -2, -3] result
  | _ => True

theorem letsReturn_answerable (op : Op) : ∃ a, LetsReturn libs r ⟨op, a⟩ := by
  cases op with
  | redisGet => exact ⟨.ok (some ""), "", rfl, .inl rfl⟩
  | redisExists => exact ⟨.ok true, true, rfl⟩
  | dao call =>
    cases call with
    | regUser => exact ⟨(0 : Int), by simp⟩
    | changePasswd => exact ⟨(1 : Int), by simp⟩
    | _ => exact ⟨Op.answer _, trivial⟩
  | _ => exact ⟨Op.answer _, trivial⟩

theorem registerForm_readable (form : RegisterForm libs body src email name pwd)
    (hv : src.text "varify_code" = .ok given) :
    (CodeRequest.userRegister body).CodeReadable libs := by
  intro src' hp
  cases hp.symm.trans form.parse
  exact ⟨given, hv⟩

theorem submitForm_readable (form : SubmitForm libs body src email uid newPasswd given) :
    (CodeRequest.submitForgetPasswd body).CodeReadable libs := by
  intro src' hp
  cases hp.symm.trans form.parse
  exact ⟨given, form.varifyCode⟩

theorem userRegister_settles (hr : Runs (userRegister libs .anyAnswer body) tr e) :
    Settles (moves .redis) tr ↔ ∀ ev ∈ tr, LetsReturn libs (.userRegister body) ev := by
  cases userRegister_ok.ends hr with
  | badJson => exact iff_of_true (idles_of_pool_ne (by simp)).settles (by simp)
  | unreadable => exact iff_of_true (idles_of_pool_ne (by simp)).settles (by simp)
  | noConn => exact iff_of_true (settles_null (by simp)) (by simp)
  | getThrew => exact iff_of_false (leaks (by simp)) (by simp)
  | absent => exact iff_of_false (leaks (by simp)) (by simp)
  | expired =>
    exact iff_of_true (settles_once (m := [_, _]) (t := []) (by simp) (by simp))
      (by simp)
  | codeUnreadable form hcode hv =>
    refine iff_of_false (leaks (by simp)) fun hev => ?_
    obtain ⟨code, hfound, hread⟩ := hev _ (.tail _ (.head _))
    cases hfound
    obtain ⟨given, hgiven⟩ := (hread.resolve_left hcode) _ form.parse
    cases hv.symm.trans hgiven
  | mismatch form _ hv =>
    exact iff_of_true (settles_once (m := [_, _]) (t := []) (by simp) (by simp))
      (by simp [registerForm_readable form hv])
  | existsThrew => exact iff_of_false (leaks (by simp)) (by simp)
  | exist form _ hv =>
    exact iff_of_true (settles_once (m := [_, _, _]) (t := []) (by simp) (by simp))
      (by simp [registerForm_readable form hv])
  | regThrew _ _ _ hrun | regFault _ _ _ hrun =>
    obtain ⟨a, -, h⟩ := runs_ask hrun
    cases h
  | refused form _ hv hrun h0 =>
    obtain ⟨a, rfl, h⟩ := runs_ask hrun
    cases h
    refine iff_of_true (settles_once (m := [_, _, _, _]) (t := []) (by simp) (by simp)) ?_
    rcases h0 with rfl | rfl <;> simp [registerForm_readable form hv]
  | twice _ _ _ hrun =>
    obtain ⟨a, rfl, h⟩ := runs_ask hrun
    cases h
    refine iff_of_false (fun hs => ?_) (by simp)
    have hback : givenBack (moves .redis) _ = taken (moves .redis) _ := hs.2
    have hcard := congrArg Multiset.card hback
    simp [givenBack, taken, moves] at hcard
  | registered form _ hv hrun _ _ h2 =>
    obtain ⟨a, rfl, h⟩ := runs_ask hrun
    cases h
    exact iff_of_true
      (settles_once (m := [_, _, _, _]) (t := []) (by simp) (by simp))
      (by simp [registerForm_readable form hv, h2])

theorem submitForgetPasswd_settles
    (hr : Runs (submitForgetPasswd libs .anyAnswer body) tr e) :
    Settles (moves .redis) tr ↔ ∀ ev ∈ tr, LetsReturn libs (.submitForgetPasswd body) ev := by
  cases submitForgetPasswd_ok.ends hr with
  | badJson => exact iff_of_true (idles_of_pool_ne (by simp)).settles (by simp)
  | unreadable => exact iff_of_true (idles_of_pool_ne (by simp)).settles (by simp)
  | noConn => exact iff_of_true (settles_null (by simp)) (by simp)
  | getThrew => exact iff_of_false (leaks (by simp)) (by simp)
  | absent => exact iff_of_false (leaks (by simp)) (by simp)
  | expired =>
    exact iff_of_true (settles_once (m := [_, _, _]) (t := []) (by simp) (by simp))
      (by simp)
  | mismatch form =>
    exact iff_of_true (settles_once (m := [_, _, _]) (t := []) (by simp) (by simp))
      (by simp [submitForm_readable form])
  | changeThrew _ _ hrun | changeFault _ _ hrun =>
    obtain ⟨a, -, h⟩ := runs_ask hrun
    cases h
  | @refused _ _ _ _ _ _ result _ _ _ _ form _ hrun herr =>
    obtain ⟨a, rfl, h⟩ := runs_ask hrun
    cases h
    refine iff_of_true
      (settles_once (m := [_, _, _]) (t := [_]) (by simp) (by simp)) ?_
    have hmem : result ∈ [1, -1, -2, -3] := by
      unfold changeError at herr
      split at herr <;> first | contradiction | simp
    simp only [List.mem_cons, List.not_mem_nil, or_false] at hmem
    simp [submitForm_readable form, hmem]
  | changed form _ hrun =>
    obtain ⟨a, rfl, h⟩ := runs_ask hrun
    cases h
    exact iff_of_true
      (settles_once (m := [_, _, _]) (t := [_]) (by simp) (by simp))
      (by simp [submitForm_readable form])
  | unnamed _ _ hrun herr hone =>
    obtain ⟨a, rfl, h⟩ := runs_ask hrun
    cases h
    refine iff_of_false (leaks (by simp)) fun hev => ?_
    -- the four results that are tested are the only good ones
    have hgood := hev _ (.tail _ (.tail _ (.head _)))
    simp only [LetsReturn, List.mem_cons, List.not_mem_nil, or_false] at hgood
    rcases hgood with rfl | rfl | rfl | rfl
    · exact absurd rfl hone
    · cases herr
    · cases herr
    · cases herr

theorem CodeRequest.settles {r : CodeRequest}
    (hr : Runs (r.handle libs .anyAnswer) tr e) :
    Settles (moves .redis) tr ↔ ∀ ev ∈ tr, LetsReturn libs r ev := by
  cases r with
  | userRegister body => exact userRegister_settles hr
  | submitForgetPasswd body => exact submitForgetPasswd_settles hr

theorem CodeRequest.borrows (r : CodeRequest) :
    Borrows (LetsReturn libs r) (moves .redis) (r.handle libs .anyAnswer) :=
  Borrows.of_runs letsReturn_answerable fun _ _ hrun hev => (CodeRequest.settles hrun).mpr hev

/-- The Redis connections are conserved by any interleaving of requests with such answers, and
a request with any other answer loses its connection or releases it twice. -/
theorem codeRequests_conserve_redis {g : Gateway Accounts} {jobs : List CodeRequest}
    (hr : Reachable (arena Accounts) (.start (CodeRequest.handle libs .anyAnswer) g jobs) c) :
    (AllFit (LetsReturn libs) c → Opened .redis c.world →
      Conserved (moves .redis) (idle .redis g) (idle .redis c.world) c.threads) ∧
    ∀ t ∈ c.threads, t.Finished →
      (Settles (moves .redis) t.hist ↔ ∀ ev ∈ t.hist, LetsReturn libs t.job ev) := by
  constructor
  · intro hf ho
    exact (lends (by decide)).conserved CodeRequest.borrows hr hf ho
  · rintro t ht ⟨e, he⟩
    have hrun := hr.steps t ht
    rw [he] at hrun
    exact CodeRequest.settles hrun

-- ---------------------------------------------------------------------------
-- An address that is registered already
-- ---------------------------------------------------------------------------

def codeBody : String := "\x7b\"email\":\"e\",\"varify_code\":\"c\"\x7d"

def codeLibs : Libs :=
  .ofBodies [(codeBody, .object [("email", .string "e"), ("varify_code", .string "c")])]

theorem codeBody_form : RegisterForm codeLibs codeBody
    (.object [("email", .string "e"), ("varify_code", .string "c")]) "e" "" "" :=
  ⟨rfl, rfl, rfl, rfl, "", rfl⟩

def expiredTrace : Trace :=
  [⟨.acquire .redis, some 0⟩, ⟨.redisGet 0 "code_e", .ok (some "")⟩,
    ⟨.write (.ofError .varifyEXpired), ()⟩, ⟨.release .redis 0, ()⟩]

theorem expiredTrace_reachable : Reachable (arena Nat)
    (.start (CodeRequest.handle codeLibs .anyAnswer) (opened [0]) [.userRegister codeBody])
    ⟨((opened [0]).setPool .redis ⟨[], false⟩).setPool .redis ⟨[0], false⟩,
      [⟨.userRegister codeBody, expiredTrace, .done (.ret true)⟩]⟩ := by
  refine Reachable.alone (.call _ (.call _ (.call _ (.call _ .refl)))) ?_
  refine .cons (.get RedisPool.Gets.front) (.cons (.quiet trivial) (.cons (.quiet trivial) ?_))
  exact .cons (.takeBack RedisPool.TakesBack.pushed) .nil

theorem codeRequests_conserve_redis_expired :
    Conserved (moves .redis) {0} {0} [⟨CodeRequest.userRegister codeBody, expiredTrace,
      (.done (.ret true) : Act Bool)⟩] := by
  refine (codeRequests_conserve_redis expiredTrace_reachable).1 ?_ rfl
  intro t ht
  cases List.mem_singleton.mp ht
  simp [expiredTrace]

def twiceTrace : Trace :=
  [⟨.acquire .redis, some 0⟩, ⟨.redisGet 0 "code_e", .ok (some "c")⟩,
    ⟨.redisExists 0 "e_usr", .ok false⟩, ⟨.dao (.regUser "" "e" ""), (-2 : Int)⟩,
    ⟨.write (.ofError .emailIsRegister), ()⟩, ⟨.release .redis 0, ()⟩,
    ⟨.write [("uid", .integer (-2)), ("varify_code", .string "c"), ("confirm", .null),
      ("passwd", .null), ("user", .null), ("email", .string "e"), ("error", .integer 0)], ()⟩,
    ⟨.release .redis 0, ()⟩]

/-- The address is registered already, and the pool gets its only connection twice. -/
theorem codeRequests_duplicate_redis : ∃ c, Reachable (arena Nat)
    (.start (CodeRequest.handle codeLibs .anyAnswer) (opened [0]) [.userRegister codeBody]) c ∧
    Opened .redis c.world ∧
    ¬ Conserved (moves .redis) (idle .redis (opened [0])) (idle .redis c.world) c.threads := by
  refine ⟨⟨((opened [0]).setPool .redis ⟨[], false⟩ |>.setPool .redis ⟨[0], false⟩).setPool
    .redis ⟨[0, 0], false⟩, [⟨.userRegister codeBody, twiceTrace, .done (.ret true)⟩]⟩,
    Reachable.alone ?_ ?_, rfl, fun hc => ?_⟩
  · exact .call _ (.call _ (.call _ (.call _ (.call _ (.call _ (.call _ (.call _ .refl)))))))
  · refine .cons (.get RedisPool.Gets.front) (.cons (.quiet trivial) (.cons (.quiet trivial) ?_))
    refine .cons (.dao 0) (.cons (.quiet trivial) ?_)
    refine .cons (.takeBack RedisPool.TakesBack.pushed) (.cons (.quiet trivial) ?_)
    exact .cons (.takeBack RedisPool.TakesBack.pushed) .nil
  · have hback := congrArg Multiset.card (hc.back _ (List.mem_singleton.mpr rfl) ⟨_, rfl⟩)
    simp [twiceTrace, givenBack, taken, moves] at hback

end GateServer.LogicalSystem
