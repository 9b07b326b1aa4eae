import GateServer.LogicalSystem.Exits
import GateServer.MySqlDao.Connections

/-!
# Decisions of the data-access layer

A method of the data-access layer that reaches its closing brace returns an arbitrary
value. The answers of the database that lead there are characterised, and the handler that
sends a code fails with the method it calls.
-/

namespace GateServer

open Interact

/-- The call ended in a `return` statement. -/
def Decided (e : Exit α) : Prop := ∃ a, e = .ret a

theorem decided_ret (a : α) : Decided (.ret a) := ⟨a, rfl⟩

theorem not_decided_undef (u : Fault) : ¬ Decided (.undef u : Exit α) := nofun

namespace MysqlDao

/-- A row where one is compared or read; for the id of an email no exception, and a row that
converts to `bool`. -/
def Grounds (libs : Libs) : Query → Except String StoreQueryResult → Prop
  | .selectLoginResult, res | .selectUidByEmail _, res => ∀ r, res = .ok r → r.first ≠ none
  | .selectGetUserUid _, res => ∃ r, res = .ok r ∧
    (r.ok = true → ∃ cell rows, r.rows = cell :: rows ∧ libs.truth cell ≠ none)
  | _, _ => True

/-- The answers after which a method reaches a `return`. -/
@[simp] def LetsReturn (libs : Libs) : Ev → Prop
  | ⟨.store _ query, res⟩ => Grounds libs query res
  | _ => True

-- ---------------------------------------------------------------------------
-- Each method
-- ---------------------------------------------------------------------------

theorem callRun_letsReturn (hr : CallRun noConn call select tr r)
    (hq : ∀ res, Grounds libs select res) : ∀ ev ∈ tr, LetsReturn libs ev := by
  cases hr <;> simp [hq]

theorem loginRun_decides (hr : LoginRun pwd user isEmail tr e) :
    Decided e ↔ ∀ ev ∈ tr, LetsReturn libs ev := by
  cases hr with
  | noConn => exact iff_of_true (decided_ret _) (by simp [Grounds])
  | refused => exact iff_of_true (decided_ret _) (by simp [Grounds])
  | answered hres => exact iff_of_true (decided_ret _) (by simp [Grounds, hres])
  | noRow hres => exact iff_of_false (not_decided_undef _) (by simp [Grounds, hres])
  | callThrew => exact iff_of_true (decided_ret _) (by simp [Grounds])
  | selectThrew => exact iff_of_true (decided_ret _) (by simp [Grounds])
  | uidThrew hres => exact iff_of_true (decided_ret _) (by simp [Grounds, hres])

theorem existsRun_decides (hr : ExistsRun email uid tr e) :
    Decided e ↔ ∀ ev ∈ tr, LetsReturn libs ev := by
  cases hr with
  | noConn => exact iff_of_true (decided_ret _) (by simp [Grounds])
  | same hres _ => exact iff_of_true (decided_ret _) (by simp [Grounds, hres])
  | other hres _ => exact iff_of_true (decided_ret _) (by simp [Grounds, hres])
  | noRow hres => exact iff_of_false (not_decided_undef _) (by simp [Grounds, hres])
  | selectThrew => exact iff_of_true (decided_ret _) (by simp [Grounds])

theorem uidRun_decides (hr : UidRun libs email tr e) :
    Decided e ↔ ∀ ev ∈ tr, LetsReturn libs ev := by
  cases hr with
  | noConn => exact iff_of_true (decided_ret _) (by simp [Grounds])
  | failed hok => exact iff_of_true (decided_ret _) (by simp [Grounds, hok])
  | noRow hok hrows => exact iff_of_false (not_decided_undef _) (by simp [Grounds, hok, hrows])
  | noTruth hok hrows hnone =>
    exact iff_of_false (not_decided_undef _) (by simp [Grounds, hok, hrows, hnone])
  | zero hok hrows htruth => exact iff_of_true (decided_ret _) (by simp [Grounds, hrows, htruth])
  | answered hok hrows htruth =>
    exact iff_of_true (decided_ret _) (by simp [Grounds, hrows, htruth])
  | selectThrew => exact iff_of_false (not_decided_undef _) (by simp [Grounds])

theorem iconRun_letsReturn (hr : IconRun uid tr data) : ∀ ev ∈ tr, LetsReturn libs ev := by
  cases hr <;> simp [Grounds]

theorem decided_of_discard {p : Act α} (h : Runs (do let _ ← p) tr (e : Exit Unit)) :
    ∃ e', Runs p tr e' ∧ (Decided e ↔ Decided e') := by
  have hspec : Spec .any [] (do let _ ← p : Act Unit) fun tr e =>
      ∃ e', Runs p tr e' ∧ (Decided e ↔ Decided e') := by
    apply (spec_run p).bind
    rintro _ e ⟨tr, rfl, hrun⟩
    cases e with
    | ret a => exact ⟨_, hrun, iff_of_true (decided_ret _) (decided_ret _)⟩
    | threw w => exact ⟨_, hrun, iff_of_false nofun nofun⟩
    | undef u => exact ⟨_, hrun, iff_of_false (not_decided_undef u) (not_decided_undef u)⟩
  exact hspec.ends h

theorem perform_decides_iff {call : DaoCall} (h : Runs (perform libs call) tr e) :
    Decided e ↔ ∀ ev ∈ tr, LetsReturn libs ev := by
  cases call with
  | regUser name email pwd =>
    obtain ⟨_, hrun, hiff⟩ := decided_of_discard h
    obtain ⟨r, rfl, hr⟩ := regUser_runs hrun
    exact hiff.trans (iff_of_true (decided_ret r) (callRun_letsReturn hr fun _ => trivial))
  | loginUser pwd user isEmail =>
    obtain ⟨_, hrun, hiff⟩ := decided_of_discard h
    exact hiff.trans (loginRun_decides (loginUser_ok.ends hrun))
  | existsUser email uid =>
    obtain ⟨_, hrun, hiff⟩ := decided_of_discard h
    exact hiff.trans (existsRun_decides (existsUser_ok.ends hrun))
  | changePasswd email uid newPasswd =>
    obtain ⟨_, hrun, hiff⟩ := decided_of_discard h
    obtain ⟨r, rfl, hr⟩ := changePasswd_runs hrun
    exact hiff.trans (iff_of_true (decided_ret r) (callRun_letsReturn hr fun _ => trivial))
  | getUserIcon uid =>
    obtain ⟨_, hrun, hiff⟩ := decided_of_discard h
    obtain ⟨data, rfl, hr⟩ := (getUserIcon_ok.ends hrun).exists
    exact hiff.trans (iff_of_true (decided_ret data) (iconRun_letsReturn hr))
  | getUserUid email =>
    obtain ⟨_, hrun, hiff⟩ := decided_of_discard h
    exact hiff.trans (uidRun_decides (getUserUid_ok.ends hrun))

def NoSuchEmail (email : String) (tr : Trace) : Prop :=
  ∃ conn res, ⟨.store conn (.selectUidByEmail email), .ok res⟩ ∈ tr ∧ res.first = none

def RefusesUnknown (email : String) (tr : Trace) (e : Exit Bool) : Prop :=
  Decided e ∧ (NoSuchEmail email tr → e = .ret false)

theorem existsUser_refuses_iff (h : Runs (existsUser email uid) tr e) :
    RefusesUnknown email tr e ↔ ∀ ev ∈ tr, LetsReturn libs ev := by
  have hiff : Decided e ↔ ∀ ev ∈ tr, LetsReturn libs ev :=
    existsRun_decides (existsUser_ok.ends h)
  constructor
  · intro hr
    exact hiff.mp hr.1
  · intro hev
    refine ⟨hiff.mpr hev, ?_⟩
    rintro ⟨conn, res, hmem, hres⟩
    exact absurd hres (hev _ hmem res rfl)

/-- A `true` is based on a row with the email and the uid. -/
theorem existsUser_true (h : Runs (existsUser email uid) tr (.ret true)) :
    ∃ conn res cell, ⟨.store conn (.selectUidByEmail email), .ok res⟩ ∈ tr ∧
      res.first = some cell ∧ cell.data = uid := by
  cases existsUser_ok.ends h with
  | same hres heq => exact ⟨_, _, _, .tail _ (.head _), hres, heq⟩

theorem existsRun_noCode (hr : ExistsRun email uid tr e) :
    ⟨.getVarifyCode stub mail, answer⟩ ∉ tr := by
  cases hr <;> simp

end MysqlDao

-- ---------------------------------------------------------------------------
-- The code for a forgotten password
-- ---------------------------------------------------------------------------

namespace LogicalSystem

/-- A code is requested only for an email and a uid that the user table has in one row. -/
def CodesStored (libs : Libs) (body : String) (tr : Trace) : Prop :=
  ∀ stub email answer, ⟨.getVarifyCode stub email, answer⟩ ∈ tr →
    ∃ src uid, libs.parse body = some src ∧ src.text "email" = .ok email ∧
      src.text "uid" = .ok uid ∧ ∃ conn res cell,
        ⟨.store conn (.selectUidByEmail email), .ok res⟩ ∈ tr ∧ res.first = some cell ∧
          cell.data = uid

/-- The handler after the answer of `ExistsUser`: it reads no row, and requests a code only
after `true` and for the same email. -/
structure Follows (libs : Libs) (email : String) (found : Bool) (tail : Trace) : Prop where
  letsReturn : ∀ ev ∈ tail, MysqlDao.LetsReturn libs ev
  code : ∀ stub mail answer, ⟨.getVarifyCode stub mail, answer⟩ ∈ tail → mail = email ∧ found = true

theorem varifyRun_follows (hr : VarifyRun email tr rsp) :
    Follows libs email true
      ([⟨.push l m, ()⟩] ++ (tr ++ ([⟨.push l' m', ()⟩] ++ [⟨.write doc, ()⟩]))) := by
  cases hr <;> constructor <;> simp +contextual

theorem Follows.codes (form : ForgetForm libs body src email uid)
    (hrun : Runs (MysqlDao.existsUser email uid) tr (.ret found))
    (h : Follows libs email found tail) : CodesStored libs body (tr ++ tail) := by
  intro stub mail answer hmem
  have hran := MysqlDao.existsUser_ok.ends hrun
  have htail := (List.mem_append.mp hmem).resolve_left (MysqlDao.existsRun_noCode hran)
  obtain ⟨rfl, rfl⟩ := h.code stub mail answer htail
  obtain ⟨conn, res, cell, hstore, hres, hcell⟩ := MysqlDao.existsUser_true hrun
  exact ⟨src, uid, form.parse, form.email, form.uid, conn, res, cell,
    List.mem_append_left _ hstore, hres, hcell⟩

theorem Follows.decides (form : ForgetForm libs body src email uid)
    (hrun : Runs (MysqlDao.existsUser email uid) tr (.ret found))
    (h : Follows libs email found tail) (fin : Bool) :
    Exit.Defined (.ret fin) ∧ CodesStored libs body (tr ++ tail) ↔
      ∀ ev ∈ tr ++ tail, MysqlDao.LetsReturn libs ev := by
  have hiff : Decided (.ret found) ↔ ∀ ev ∈ tr, MysqlDao.LetsReturn libs ev :=
    MysqlDao.existsRun_decides (MysqlDao.existsUser_ok.ends hrun)
  refine iff_of_true ⟨trivial, h.codes form hrun⟩ ?_
  exact List.forall_mem_append.mpr ⟨hiff.mp (decided_ret found), h.letsReturn⟩

theorem forgetPasswd_decides
    (hr : Runs (getVarifyCodeForgetPasswd libs (.ofDao libs) body) tr e) :
    e.Defined ∧ CodesStored libs body tr ↔ ∀ ev ∈ tr, MysqlDao.LetsReturn libs ev := by
  cases getVarifyCodeForgetPasswd_exits.ends hr with
  | badJson => exact iff_of_true ⟨trivial, by simp [CodesStored]⟩ (by simp)
  | unreadable => exact iff_of_true ⟨trivial, by simp [CodesStored]⟩ (by simp)
  | existsThrew _ hrun => cases MysqlDao.existsUser_ok.ends hrun
  | @existsFault _ _ _ _ u _ hrun =>
    -- the method fell off its end, and the handler has nothing to go on with
    have hiff : Decided (.undef u) ↔ ∀ ev ∈ tr, MysqlDao.LetsReturn libs ev :=
      MysqlDao.existsRun_decides (MysqlDao.existsUser_ok.ends hrun)
    exact iff_of_false (fun h => h.1) (mt hiff.mpr (not_decided_undef u))
  | unknown form hrun =>
    rw [List.append_assoc]
    exact Follows.decides form hrun ⟨by simp, by simp⟩ _
  | answered form hrun hrsp =>
    simp only [List.append_assoc]
    exact Follows.decides form hrun (varifyRun_follows hrsp) _

-- ---------------------------------------------------------------------------
-- All of them
-- ---------------------------------------------------------------------------

/-- The methods, and the handler that sends a code because of one, decide on the answers of the
database iff the answers give grounds for it. -/
theorem dao_decides_iff (libs : Libs) :
    (∀ call tr e, Runs (MysqlDao.perform libs call) tr e →
      (Decided e ↔ ∀ ev ∈ tr, MysqlDao.LetsReturn libs ev)) ∧
    (∀ email uid tr e, Runs (MysqlDao.existsUser email uid) tr e →
      (MysqlDao.RefusesUnknown email tr e ↔ ∀ ev ∈ tr, MysqlDao.LetsReturn libs ev)) ∧
    ∀ body tr e, Runs (getVarifyCodeForgetPasswd libs (.ofDao libs) body) tr e →
      (e.Defined ∧ CodesStored libs body tr ↔ ∀ ev ∈ tr, MysqlDao.LetsReturn libs ev) := by
  refine ⟨?_, ?_, ?_⟩
  · intro call tr e hrun
    exact MysqlDao.perform_decides_iff hrun
  · intro email uid tr e hrun
    exact MysqlDao.existsUser_refuses_iff hrun
  · intro body tr e hrun
    exact forgetPasswd_decides hrun

theorem dao_decides_iff_stored :
    MysqlDao.RefusesUnknown "e" MysqlDao.foundTrace (.ret true) := by
  refine ((dao_decides_iff (.ofBodies [])).2.1 "e" "7" MysqlDao.foundTrace _ ?_).mpr ?_
  · exact .call _ (.call _ (.call _ (.call _ (.call _ .refl))))
  · simp [MysqlDao.foundTrace, MysqlDao.Grounds, StoreQueryResult.first]

/-- The table has no row for the email, and the method runs off its end. -/
theorem unknown_email_undecided : ∃ tr e, Runs (MysqlDao.existsUser "e" "7") tr e ∧
    MysqlDao.NoSuchEmail "e" tr ∧ ¬ Decided e ∧ ¬ MysqlDao.RefusesUnknown "e" tr e := by
  refine ⟨[⟨.acquire .mySql, some 0⟩, ⟨.store 0 (.selectUidByEmail "e"), .ok ⟨true, []⟩⟩],
    .undef .offEnd, .call _ (.call _ .refl), ⟨0, _, .tail _ (.head _), rfl⟩, ?_, ?_⟩
  · exact not_decided_undef _
  · exact fun h => not_decided_undef _ h.1

end LogicalSystem
end GateServer
