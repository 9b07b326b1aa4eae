import GateServer.LogicalSystem.Connections
import GateServer.MySqlDao.Exits

/-!
# The reply about a verification code

A client that could not send a code returns a default response, whose error number is that
of a success.
-/

namespace GateServer.LogicalSystem

open Interact

def Sent (tr : Trace) : Prop :=
  ∃ (stub : Conn) (email : String) (status : Status) (rsp : GetVarifyRsp),
    ⟨.getVarifyCode stub email, (status, rsp)⟩ ∈ tr ∧ status.ok = true ∧
      rsp.error = ErrorCodes.success

def Undelivered (tr : Trace) : Prop :=
  ⟨.acquire .varify, none⟩ ∈ tr ∨
    ∃ stub email status rsp, ⟨.getVarifyCode stub email, (status, rsp)⟩ ∈ tr ∧ status.ok = false

structure ReportsDelivery (tr : Trace) (e : Exit Bool) : Prop where
  defined : e.Defined
  success : ∀ doc ∈ replies tr, doc.Succeeds → Sent tr
  failure : Undelivered tr → replies tr ≠ [] ∧ ∀ doc ∈ replies tr, doc.Fails

/-- There is a stub, the call succeeds, and the account that is asked for has a row. -/
@[simp] def Delivers : Ev → Prop
  | ⟨.acquire .varify, stub⟩ => ∃ s, stub = some s
  | ⟨.getVarifyCode _ _, (status, _)⟩ => status.ok = true
  | ⟨.store _ (.selectUidByEmail _), res⟩ => ∀ r, res = .ok r → ∃ cell, r.first = some cell
  | _ => True

theorem not_undelivered (h : ∀ ev ∈ tr, Delivers ev) : ¬ Undelivered tr := by
  rintro (hmem | ⟨stub, email, status, rsp, hmem, hok⟩)
  · obtain ⟨s, hs⟩ := h _ hmem
    cases hs
  · exact absurd (h _ hmem) (by simp [hok])

theorem reportsDelivery_refused (hrep : replies tr = [.ofError c]) (hc : c ≠ .success) :
    ReportsDelivery tr (.ret x) where
  defined := trivial
  success := by
    intro doc hdoc hs
    rw [hrep, List.mem_singleton] at hdoc
    exact absurd (hdoc ▸ hs) (Json.Object.fails_ofError hc).not_succeeds
  failure := by
    intro _
    simp only [hrep, List.mem_singleton, forall_eq]
    exact ⟨by simp, Json.Object.fails_ofError hc⟩

/-- The default response reports success, so a reply made of the response is right iff the call
was made and succeeded. -/
theorem reportsDelivery_answered {X tr Y : Trace} (hr : VarifyRun email tr rsp)
    (hrep : replies (X ++ tr ++ Y) = [doc]) (hdoc : doc.error = some rsp.error)
    (hX : ∀ ev ∈ X, Delivers ev) (hY : ∀ ev ∈ Y, Delivers ev) :
    ReportsDelivery (X ++ tr ++ Y) (.ret x) ↔ ∀ ev ∈ X ++ tr ++ Y, Delivers ev := by
  have hin : ∀ ev ∈ tr, ev ∈ X ++ tr ++ Y := by simp +contextual
  have hall (htr : ∀ ev ∈ tr, Delivers ev) : ∀ ev ∈ X ++ tr ++ Y, Delivers ev :=
    List.forall_mem_append.mpr ⟨List.forall_mem_append.mpr ⟨hX, htr⟩, hY⟩
  have hfilled (hsucc : doc.Succeeds) (hun : Undelivered (X ++ tr ++ Y)) :
      ¬ ReportsDelivery (X ++ tr ++ Y) (.ret x) := fun h =>
    ((h.failure hun).2 doc (hrep ▸ .head _)).not_succeeds hsucc
  cases hr with
  | noStub =>
    have hun : Undelivered _ := .inl (hin _ (.head _))
    exact iff_of_false (hfilled hdoc hun) fun h => not_undelivered h hun
  | failed hok =>
    have hun : Undelivered _ := .inr ⟨_, _, _, _, hin _ (.tail _ (.head _)), hok⟩
    exact iff_of_false (hfilled hdoc hun) fun h => not_undelivered h hun
  | sent hok =>
    have hd := hall (by simp [hok])
    refine iff_of_true ⟨trivial, ?_, fun hun => absurd hun (not_undelivered hd)⟩ hd
    intro doc' hdoc' hsucc
    rw [hrep, List.mem_singleton] at hdoc'
    subst hdoc'
    exact ⟨_, _, _, _, hin _ (.tail _ (.head _)), hok, Option.some.inj (hdoc.symm.trans hsucc)⟩

theorem existsRun_delivers (hr : MysqlDao.ExistsRun email uid tr e) :
    (∀ ev ∈ tr, Delivers ev) ↔ e.Defined := by
  cases hr with
  | same hres => simp [hres]
  | other hres => simp [hres]
  | noRow hres => simp [hres]
  | _ => simp

theorem reportsDelivery_threw : ReportsDelivery [] (.threw w) where
  defined := trivial
  success := by simp [replies]
  failure := by simp [Undelivered]

theorem getVarifyCode_reports_iff (hr : Runs (getVarifyCode libs body) tr e) :
    ReportsDelivery tr e ↔ ∀ ev ∈ tr, Delivers ev := by
  cases getVarifyCode_ok.ends hr with
  | refused => exact iff_of_true (reportsDelivery_refused rfl (by simp)) (by simp)
  | unreadable => exact iff_of_true reportsDelivery_threw (by simp)
  | answered _ hrsp hdoc =>
    rw [List.append_assoc]
    refine reportsDelivery_answered hrsp ?_ hdoc (by simp) (by simp)
    simp only [replies_append, varifyRun_replies hrsp]
    rfl

theorem getVarifyCodeForgetPasswd_reports_iff
    (hr : Runs (getVarifyCodeForgetPasswd libs (.ofDao libs) body) tr e) :
    ReportsDelivery tr e ↔ ∀ ev ∈ tr, Delivers ev := by
  cases getVarifyCodeForgetPasswd_ok.ends hr with
  | badJson => exact iff_of_true (reportsDelivery_refused rfl (by simp)) (by simp)
  | unreadable => exact iff_of_true reportsDelivery_threw (by simp)
  | existsThrew _ hrun => cases MysqlDao.existsUser_ok.ends hrun
  | existsFault _ hrun =>
    exact iff_of_false (·.defined) (existsRun_delivers (MysqlDao.existsUser_ok.ends hrun)).mp
  | unknown _ hrun =>
    have hexists := MysqlDao.existsUser_ok.ends hrun
    refine iff_of_true (reportsDelivery_refused (c := .userNotExist) ?_ (by simp)) ?_
    · simp only [replies_append, MysqlDao.existsRun_replies hexists]
      rfl
    · simp only [List.forall_mem_append, existsRun_delivers hexists]
      exact ⟨⟨trivial, by simp⟩, by simp⟩
  | answered _ hrun hrsp hdoc =>
    have hexists := MysqlDao.existsUser_ok.ends hrun
    rw [List.append_assoc]
    refine reportsDelivery_answered hrsp ?_ hdoc ?_ (by simp)
    · simp only [replies_append, varifyRun_replies hrsp, MysqlDao.existsRun_replies hexists]
      rfl
    · rw [List.forall_mem_append, existsRun_delivers hexists]
      exact ⟨trivial, by simp⟩

/-- On both routes, the reply about the code is right iff there is a stub, the call succeeds,
and the account that is asked for has a row. -/
theorem codeDelivery_reports_iff (hroute : (path, handler) ∈ postHandlers libs (.ofDao libs))
    (hpath : path = "/get_varify_code" ∨ path = "/get_varify_code_forget_passwd")
    (hr : Runs (handler body) tr e) : ReportsDelivery tr e ↔ ∀ ev ∈ tr, Delivers ev := by
  simp only [postHandlers, List.mem_cons, List.not_mem_nil, or_false, Prod.mk.injEq] at hroute
  rcases hpath with rfl | rfl
  · simp at hroute
    subst hroute
    exact getVarifyCode_reports_iff hr
  · simp at hroute
    subst hroute
    exact getVarifyCodeForgetPasswd_reports_iff hr

def sentDoc : Json.Object := [("email", .string "e"), ("error", .integer 0)]

def sentTrace : Trace :=
  [⟨.push .info "Processing verification code request for email: e", ()⟩,
    ⟨.acquire .varify, some 0⟩, ⟨.getVarifyCode 0 "e", (⟨true, ""⟩, ⟨0, "e", "c"⟩)⟩,
    ⟨.release .varify 0, ()⟩, ⟨.push .info "Verification code sent successfully to email: e", ()⟩,
    ⟨.write sentDoc, ()⟩]

theorem codeDelivery_reports_sent : ReportsDelivery sentTrace (.ret true) := by
  have hrun : Runs (getVarifyCode codeLibs codeBody) sentTrace (.ret true) :=
    .call _ (.call _ (.call _ (.call _ (.call _ (.call _ .refl)))))
  exact (codeDelivery_reports_iff (.head _) (.inl rfl) hrun).mpr (by simp [sentTrace])

theorem missing_stub_reports_success : ∃ tr e,
    Runs (getVarifyCode codeLibs codeBody) tr e ∧ ¬ ReportsDelivery tr e := by
  refine ⟨[⟨.push .info "Processing verification code request for email: e", ()⟩,
    ⟨.acquire .varify, none⟩, ⟨.log .error "No available gRPC connection.", ()⟩,
    ⟨.push .info "Verification code sent successfully to email: e", ()⟩, ⟨.write sentDoc, ()⟩],
    .ret true, ?_, fun h => ?_⟩
  · exact .call _ (.call _ (.call _ (.call _ (.call _ .refl))))
  · obtain ⟨_, _, _, _, hmem, -⟩ := h.success _ (.head _) rfl
    simp at hmem

end GateServer.LogicalSystem
