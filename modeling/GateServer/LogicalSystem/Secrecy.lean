import GateServer.Interact.Blind
import GateServer.LogicalSystem.Connections
import GateServer.LogicalSystem.OffRedis

/-!
# Secrecy of the stored codes

A handler only compares the stored code with the one it is given. A wrong code has no
other influence on the run.
-/

namespace GateServer.LogicalSystem

open Interact Gateway MysqlDao

/-- The stored code differs from the one in the request. -/
def WrongCode (libs : Libs) (body code : String) : Prop :=
  code ≠ "" ∧ ∀ src, libs.parse body = some src → src.text "varify_code" ≠ .ok code

/-- The same answer, or two wrong codes. -/
@[simp] def SameGuess (libs : Libs) (body : String) : (op : Op) → Ans op → Ans op → Prop
  | .redisGet _ _, a, a' => a = a' ∨ ∃ code code', WrongCode libs body code ∧
      WrongCode libs body code' ∧ a = .ok (some code) ∧ a' = .ok (some code')
  | _, a, a' => a = a'

abbrev CodeBlind (libs : Libs) (body : String) (p : Act α) : Prop := Blind (SameGuess libs body) p

@[simp] def looksUp : Op → Bool
  | .redisGet _ _ => true
  | _ => false

theorem same_of_not_looksUp {op : Op} (h : looksUp op = false) (a a' : Ans op)
    (hsame : SameGuess libs body op a a') : a = a' := by
  cases op <;> first | exact hsame | cases h

theorem blind_of_runs {p : Act α} (h : ∀ tr e, Runs p tr e → OffRedis tr) :
    CodeBlind libs body p := by
  refine .of_runs (fun op => ⟨op.answer⟩) fun tr e hr ev hev => same_of_not_looksUp ?_
  have hoff := h tr e hr ev hev
  cases hop : ev.op <;> first | rfl | (rw [hop] at hoff; cases hoff)

theorem blind_ask {op : Op} (h : looksUp op = false) : CodeBlind libs body (ask op) :=
  .ask (same_of_not_looksUp h)

-- ---------------------------------------------------------------------------
-- The two that do
-- ---------------------------------------------------------------------------

/-- The program after the lookup of a code does the same with every wrong code. -/
theorem blind_lookupCode {f : Conn × String → Act α}
    (hsame : ∀ conn code code', WrongCode libs body code → WrongCode libs body code' →
      f (conn, code) = f (conn, code'))
    (hf : ∀ conn code, CodeBlind libs body (f (conn, code))) :
    CodeBlind libs body (lookupCode email >>= f) := by
  simp only [lookupCode, bind_assoc, pure_bind, redisGet]
  refine .bind (blind_ask rfl) fun conn => .bind (.ofOption _ _) fun conn => ?_
  refine ⟨?_, fun a => ?_⟩
  · rintro a a' (rfl | ⟨code, code', hcode, hcode', rfl, rfl⟩)
    · rfl
    · exact hsame conn code code' hcode hcode'
  · show CodeBlind libs body (Prog.ofExcept a >>= fun stored =>
      Prog.ofOption .emptyOptional stored >>= fun code => f (conn, code))
    exact .bind (.ofExcept a) fun stored => .bind (.ofOption _ stored) fun code => hf conn code

theorem WrongCode.not_given (h : WrongCode libs body code) (hp : libs.parse body = some src)
    (hv : src.text "varify_code" = .ok given) : code ≠ given := by
  rintro rfl
  exact h.2 src hp hv

theorem blind_reply (h : CodeBlind libs body p) (doc : Json.Object) (conn : Conn) :
    CodeBlind libs body (do
      write doc
      RedisPool.returnConnection conn
      p) :=
  .bind (blind_ask rfl) fun _ => .bind (blind_ask rfl) fun _ => h

theorem blind_userRegister : CodeBlind libs body (userRegister libs (.ofDao libs) body) := by
  have hreg {name email pwd} : CodeBlind libs body (MysqlDao.regUser name email pwd) := by
    refine blind_of_runs fun tr e hr => ?_
    obtain ⟨r, -, h⟩ := regUser_runs hr
    exact callRun_offRedis h
  unfold userRegister
  cases hp : libs.parse body with
  | none => exact .bind (blind_ask rfl) fun _ => .pure _
  | some src =>
  refine .bind (.ofExcept _) fun email => .bind (.ofExcept _) fun name => ?_
  refine .bind (.ofExcept _) fun pwd => .bind (.ofExcept _) fun confirm => ?_
  refine .bind (.ofExcept _) fun key => blind_lookupCode ?_ fun conn code => ?_
  · intro conn code code' hcode hcode'
    simp only [hcode.1, hcode'.1, if_false, text]
    cases hv : src.text "varify_code" with
    | error w => rfl
    | ok given => simp [hcode.not_given hp hv, hcode'.not_given hp hv]
  refine .branch (blind_reply (.pure _) _ _) (.bind (.ofExcept _) fun given => ?_)
  refine .branch (blind_reply (.pure _) _ _) (.bind (.ofExcept _) fun mail => ?_)
  refine .bind (.bind (blind_ask rfl) fun _ => .ofExcept _) fun exist => ?_
  refine .branch (blind_reply (.pure _) _ _) (.bind hreg fun result => ?_)
  refine .branch (blind_reply (.pure _) _ _) ?_
  have hrest (doc : Json.Value → Json.Value → Json.Value → Json.Value → Json.Value → Json.Object) :
      CodeBlind libs body (do
        let email ← field src "email"
        let user ← field src "user"
        let passwd ← field src "passwd"
        let confirm ← field src "confirm"
        let code ← field src "varify_code"
        write (doc email user passwd confirm code)
        RedisPool.returnConnection conn
        return true) := by
    refine .bind (.ofExcept _) fun _ => .bind (.ofExcept _) fun _ => .bind (.ofExcept _) fun _ => ?_
    exact .bind (.ofExcept _) fun _ => .bind (.ofExcept _) fun _ => blind_reply (.pure _) _ _
  exact .branch (blind_reply (hrest _) _ _) (hrest _)

theorem blind_submitForgetPasswd :
    CodeBlind libs body (submitForgetPasswd libs (.ofDao libs) body) := by
  have hchange {email uid pwd} :
      CodeBlind libs body (MysqlDao.changePasswdWhenUserForgetPasswd email uid pwd) := by
    refine blind_of_runs fun tr e hr => ?_
    obtain ⟨r, -, h⟩ := changePasswd_runs hr
    exact callRun_offRedis h
  unfold submitForgetPasswd
  cases hp : libs.parse body with
  | none => exact .bind (blind_ask rfl) fun _ => .bind (blind_ask rfl) fun _ => .pure _
  | some src =>
  refine .bind (.ofExcept _) fun email => .bind (.ofExcept _) fun uid => ?_
  refine .bind (.ofExcept _) fun newPasswd => ?_
  simp only [text]
  cases hv : src.text "varify_code" with
  | error w => trivial
  | ok given =>
  simp only [Prog.ofExcept_ok, pure_bind]
  refine blind_lookupCode ?_ fun conn code => ?_
  · intro conn code code' hcode hcode'
    simp [hcode.1, hcode'.1, hcode.not_given hp hv, hcode'.not_given hp hv]
  have hrefuse (line : String → String) (doc : Json.Object) : CodeBlind libs body (do
      let email ← text src "email"
      push .error (line email)
      RedisPool.returnConnection conn
      write doc
      return true) :=
    .bind (.ofExcept _) fun _ => .bind (blind_ask rfl) fun _ => .bind (blind_ask rfl) fun _ =>
      .bind (blind_ask rfl) fun _ => .pure _
  refine .branch (.bind (blind_ask rfl) fun _ => blind_reply (.pure _) _ _) ?_
  refine .branch (.bind (blind_ask rfl) fun _ => blind_reply (.pure _) _ _) ?_
  refine .bind hchange fun result => ?_
  refine .branch (hrefuse _ _) (.branch (hrefuse _ _) (.branch (hrefuse _ _) ?_))
  refine .branch ?_ (.fault _)
  refine .bind (.ofExcept _) fun _ => .bind (blind_ask rfl) fun _ => ?_
  refine .bind (.ofExcept _) fun _ => .bind (.ofExcept _) fun _ => .bind (blind_ask rfl) fun _ => ?_
  exact .bind (blind_ask rfl) fun _ => .pure _

theorem Post.blind (post : Post libs) : CodeBlind libs post.body post.handle := by
  by_cases hpath : post.path ∈ codePaths
  · rcases post.of_codePaths hpath with h | h <;> rw [h]
    · exact blind_userRegister
    · exact blind_submitForgetPasswd
  · exact blind_of_runs fun _ _ hr => post.offRedis hpath hr

theorem acts_reanswered {g g' : Gateway Accounts} (h : Acts g ev g')
    (hev : Event.Like (SameGuess libs body) ev ev') : Acts g ev' g' := by
  cases hev with
  | @mk op a a' hsame =>
  cases op with
  | redisGet conn key =>
    cases h
    exact .quiet trivial
  | _ => exact same_of_not_looksUp rfl a a' hsame ▸ h

/-- Other wrong codes could have been stored with everything else unchanged: what is written
and logged, the pools, the accounts, and the rest of each request. -/
theorem posts_hide_codes {g : Gateway Accounts} {jobs : List (Post libs)}
    (hr : Reachable (arena Accounts) (.start Post.handle g jobs) c)
    (hts : List.Forall₂ (Thread.Reanswered fun post => SameGuess libs post.body) c.threads ts) :
    Reachable (arena Accounts) (.start Post.handle g jobs) ⟨c.world, ts⟩ :=
  hr.reanswered Post.blind (fun _ _ _ _ _ h hev => acts_reanswered h hev) hts

def wrongTrace (stored : String) : Trace :=
  [⟨.acquire .redis, some 0⟩, ⟨.redisGet 0 "code_e", .ok (some stored)⟩,
    ⟨.write (.ofError .varifyError), ()⟩, ⟨.release .redis 0, ()⟩]

theorem wrongCode_codeBody (hempty : code ≠ "") (hne : code ≠ "c") :
    WrongCode codeLibs codeBody code := by
  refine ⟨hempty, fun src hsrc hcode => hne ?_⟩
  cases hsrc
  cases hcode
  rfl

theorem posts_hide_codes_mismatch : Reachable (arena Nat)
    (.start Post.handle (opened [0]) [.userRegister codeLibs codeBody])
    ⟨((opened [0]).setPool .redis ⟨[], false⟩).setPool .redis ⟨[0], false⟩,
      [⟨.userRegister codeLibs codeBody, wrongTrace "x", .done (.ret true)⟩]⟩ := by
  have hrun : Runs (Post.userRegister codeLibs codeBody).handle (wrongTrace "d")
      (.ret true) := .call _ (.call _ (.call _ (.call _ .refl)))
  refine posts_hide_codes (Reachable.alone hrun ?_) (.cons (.mk ?_) .nil)
  · refine .cons (.get RedisPool.Gets.front) (.cons (.quiet trivial) (.cons (.quiet trivial) ?_))
    exact .cons (.takeBack RedisPool.TakesBack.pushed) .nil
  · have hd : WrongCode codeLibs codeBody "d" := wrongCode_codeBody (by decide) (by decide)
    have hx : WrongCode codeLibs codeBody "x" := wrongCode_codeBody (by decide) (by decide)
    exact .cons (.mk rfl) (.cons (.mk (.inr ⟨_, _, hd, hx, rfl, rfl⟩))
      (.cons (.mk rfl) (.cons (.mk rfl) .nil)))

end GateServer.LogicalSystem
