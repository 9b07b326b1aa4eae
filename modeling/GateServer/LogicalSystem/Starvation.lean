import GateServer.Interact.Relying
import GateServer.LogicalSystem.Connections
import GateServer.LogicalSystem.OffRedis

/-!
# A gateway without Redis connections

A pool without a connection stays empty, and two of the routes answer no request then.
-/

namespace GateServer.LogicalSystem

open Interact Gateway MysqlDao

-- ---------------------------------------------------------------------------
-- An empty pool stays empty
-- ---------------------------------------------------------------------------

@[simp] def NotLent : Ev → Prop
  | ⟨.acquire .redis, some _⟩ => False
  | _ => True

@[simp] def KeepsEmpty : Op → Prop
  | .release .redis _ => False
  | _ => True

theorem acts_empty {g g' : Gateway Accounts} (h : (g.pools .redis).conns = [])
    (hkeeps : KeepsEmpty op) (ha : Acts g ⟨op, a⟩ g') :
    (g'.pools .redis).conns = [] ∧ NotLent ⟨op, a⟩ := by
  cases ha with
  | @get pool conn p hgets =>
    by_cases hpool : pool = .redis
    · subst hpool
      cases conn with
      | none =>
        rw [setPool_pools_self, hgets.null (by decide)]
        exact ⟨h, trivial⟩
      | some conn =>
        rw [hgets.front (by decide)] at h
        cases h
    · refine ⟨by rwa [setPool_pools_ne g p (Ne.symm hpool)], ?_⟩
      cases pool <;> trivial
  | @takeBack pool conn p =>
    have hpool : pool ≠ .redis := by
      rintro rfl
      exact hkeeps
    exact ⟨by rwa [setPool_pools_ne g p hpool.symm], trivial⟩
  | execute => exact ⟨h, trivial⟩
  | dao => exact ⟨h, trivial⟩
  | quiet hop => exact ⟨h, by cases op <;> trivial⟩

theorem closes_empty {g g' : Gateway Accounts} (h : (g.pools .redis).conns = [])
    (hc : Closes g g') : (g'.pools .redis).conns = [] := by
  obtain ⟨hclose⟩ := hc
  rename_i pool p
  by_cases hpool : pool = .redis
  · subst hpool
    have hle := hclose.loses
    rw [h] at hle
    simpa using hle
  · rwa [setPool_pools_ne g p (Ne.symm hpool)]

-- ---------------------------------------------------------------------------
-- The routes
-- ---------------------------------------------------------------------------

def Silent (op : Op) : Prop := KeepsEmpty op ∧ ∀ doc, op ≠ .write doc

/-- Without a connection the program neither replies nor returns. -/
abbrev Starves (p : Act α) : Prop :=
  ∀ h, Spec ⟨NotLent, fun _ => Silent⟩ h p fun _ e => ∀ a, e ≠ .ret a

theorem starves_ofExcept {x : Except String α} {f : α → Act β} (h : ∀ a, Starves (f a)) :
    Starves (Prog.ofExcept x >>= f) := by
  intro h'
  cases x with
  | ok a => exact h a h'
  | error w => exact nofun

theorem starves_lookupCode (email : String) (f : Conn × String → Act α) :
    Starves (lookupCode email >>= f) := by
  intro h
  refine ⟨⟨trivial, nofun⟩, fun conn hconn => ?_⟩
  cases conn with
  | none => exact nofun
  | some conn => exact hconn.elim

theorem userRegister_starves (hp : libs.parse body = some src) :
    Starves (userRegister libs (.ofDao libs) body) := by
  unfold userRegister
  rw [hp]
  refine starves_ofExcept fun email => starves_ofExcept fun name => ?_
  refine starves_ofExcept fun pwd => starves_ofExcept fun confirm => ?_
  exact starves_ofExcept fun key => starves_lookupCode _ _

theorem submitForgetPasswd_starves (hp : libs.parse body = some src) :
    Starves (submitForgetPasswd libs (.ofDao libs) body) := by
  unfold submitForgetPasswd
  rw [hp]
  refine starves_ofExcept fun email => starves_ofExcept fun uid => ?_
  exact starves_ofExcept fun pwd => starves_ofExcept fun code => starves_lookupCode _ _

theorem notLent_answer (op : Op) : NotLent ⟨op, op.answer⟩ := by
  cases op with
  | acquire pool => cases pool <;> trivial
  | _ => trivial

theorem keepsEmpty_offRedis {op : Op} (h : onRedis op = false) : KeepsEmpty op := by
  cases op with
  | release pool conn => cases pool <;> trivial
  | _ => trivial

theorem Post.keepsEmpty (post : Post libs) :
    Spec ⟨NotLent, fun _ => KeepsEmpty⟩ [] post.handle fun _ _ => True := by
  by_cases hpath : post.path ∈ codePaths
  · cases hp : libs.parse post.body with
    | none =>
      rcases post.of_codePaths hpath with h | h <;> rw [h]
      · unfold LogicalSystem.userRegister
        rw [hp]
        exact ⟨trivial, fun _ _ => trivial⟩
      · unfold submitForgetPasswd
        rw [hp]
        exact ⟨trivial, fun _ _ => ⟨trivial, fun _ _ => trivial⟩⟩
    | some src =>
      rcases post.of_codePaths hpath with h | h <;> rw [h]
      · exact ((userRegister_starves hp []).guar_mono fun _ _ h => h.1).mono fun _ _ _ => trivial
      · exact ((submitForgetPasswd_starves hp []).guar_mono fun _ _ h => h.1).mono
          fun _ _ _ => trivial
  · refine Spec.of_runs (fun op => ⟨_, notLent_answer op⟩) fun tr e hr _ => ⟨?_, trivial⟩
    exact guarded_of_forall fun ev hev h' => keepsEmpty_offRedis (post.offRedis hpath hr ev hev)

theorem silent_replies {p q : Act α} (hp : Spec ⟨NotLent, fun _ => Silent⟩ [] p Q)
    (hs : Steps p tr q) (hans : ∀ ev ∈ tr, NotLent ev) : replies tr = [] := by
  refine List.filterMap_eq_nil_iff.mpr fun ev hev => ?_
  obtain ⟨before, after, rfl⟩ := List.append_of_mem hev
  obtain ⟨op, a⟩ := ev
  have hop := hp.asks hs fun ev hev => hans ev (by simp [hev])
  cases op with
  | write doc => exact absurd rfl (hop.2 doc)
  | _ => rfl

/-- A well-formed request that has to look up a code. -/
structure NeedsCode (post : Post libs) : Prop where
  path : post.path ∈ codePaths
  json : (libs.parse post.body).isSome

theorem Post.starves (post : Post libs) (h : NeedsCode post) : Starves post.handle := by
  obtain ⟨src, hp⟩ := Option.isSome_iff_exists.mp h.json
  rcases post.of_codePaths h.path with h | h <;> rw [h]
  · exact userRegister_starves hp
  · exact submitForgetPasswd_starves hp

/-- No request that needs a connection gets one or is answered, whatever the other requests do.
-/
theorem posts_starve {g : Gateway Accounts} {jobs : List (Post libs)}
    (hempty : (g.pools .redis).conns = [])
    (hr : Reachable (arena Accounts) (.start Post.handle g jobs) c) :
    (c.world.pools .redis).conns = [] ∧
    ∀ t ∈ c.threads, NeedsCode t.job →
      replies t.hist = [] ∧ ∀ r, t.rest ≠ .done (.ret r) := by
  obtain ⟨hworld, hhist⟩ := hr.relies (I := fun g => (g.pools .redis).conns = []) Post.keepsEmpty
    hempty (fun _ _ _ _ _ h hkeeps ha => acts_empty h hkeeps ha) fun _ _ h hc => closes_empty h hc
  refine ⟨hworld, fun t ht hneeds => ⟨?_, fun r hret => ?_⟩⟩
  · exact silent_replies (t.job.starves hneeds []) (hr.steps t ht) (hhist t ht)
  · have hends := (t.job.starves hneeds []).steps (hr.steps t ht) (hhist t ht)
    rw [hret] at hends
    exact hends r rfl

end GateServer.LogicalSystem
