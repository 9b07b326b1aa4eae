import GateServer.LogicalSystem.Connections
import GateServer.MySqlDao.Exits

/-!
# Replies to a registration

The data layer answers a registration with account ids, the procedure's own codes and the
layer's error codes in one integer, and the handler takes all but three of them for an id.
-/

namespace GateServer.LogicalSystem

open Interact

def Holds (cell : Cell) (n : Int) : Prop := cell.isNull = false ∧ cell.data = toString n

/-- `reg_user` was executed and left this positive id. -/
def Created (tr : Trace) (id : Int) : Prop :=
  (∃ name pwd email, (.regUser name pwd email, true) ∈ executed tr) ∧
    ∃ res cell, (.selectResult, res) ∈ selected tr ∧ res.first = some cell ∧
      Holds cell id ∧ 0 < id

/-- A registration reports success for a created account, with its id, and otherwise an error
and no id. -/
structure ReportsCreation (tr : Trace) (e : Exit Bool) : Prop where
  ends : ∃ x, e = .ret x
  success : ∀ doc ∈ replies tr, doc.Succeeds →
    ∃ id, Created tr id ∧ doc.member "uid" = some (.integer id)
  failure : (∀ id, ¬ Created tr id) →
    replies tr ≠ [] ∧ ∀ doc ∈ replies tr, doc.Fails ∧ doc.member "uid" = none

/-- A positive id below `2 ^ 31`, or a text that `atoi` reads as one of the two results that
are refused. -/
def Told (cell : Cell) : Prop :=
  atoi cell.data = 0 ∨ atoi cell.data = -1 ∨ ∃ id, Holds cell id ∧ 0 < id ∧ id < 2 ^ 31

/-- The answers by which a registration can tell whether the account was created. -/
@[simp] def Tells (libs : Libs) (body : String) : Ev → Prop
  | ⟨.acquire _, conn⟩ => ∃ c, conn = some c
  | ⟨.redisGet _ _, found⟩ => ∃ code, found = .ok (some code) ∧
    (code = "" ∨ (CodeRequest.userRegister body).CodeReadable libs)
  | ⟨.redisExists _ _, exist⟩ => ∃ b, exist = .ok b
  | ⟨.execute _ _, done⟩ => done = .ok true
  | ⟨.store _ _, res⟩ => ∃ r cell, res = .ok r ∧ r.first = some cell ∧ Told cell
  | _ => True

def FieldsReadable (libs : Libs) (body : String) : Prop :=
  ∀ src, libs.parse body = some src →
    ∀ key ∈ ["email", "user", "passwd", "confirm"], ∃ s, src.text key = .ok s

theorem registerForm_fields (form : RegisterForm libs body src email name pwd) :
    FieldsReadable libs body := by
  intro src' hp key hkey
  cases hp.symm.trans form.parse
  simp only [List.mem_cons, List.not_mem_nil, or_false] at hkey
  rcases hkey with rfl | rfl | rfl | rfl
  · exact ⟨_, form.email⟩
  · exact ⟨_, form.user⟩
  · exact ⟨_, form.passwd⟩
  · exact form.confirm

theorem reportsCreation_ofError {c : ErrorCodes} (hrep : replies tr = [.ofError c])
    (hc : c ≠ .success) : ReportsCreation tr (.ret x) where
  ends := ⟨x, rfl⟩
  success := by
    intro doc hdoc hs
    rw [hrep, List.mem_singleton] at hdoc
    exact absurd (hdoc ▸ hs) (Json.Object.fails_ofError hc).not_succeeds
  failure := by
    intro _
    simp only [hrep, List.mem_singleton, forall_eq]
    exact ⟨by simp, Json.Object.fails_ofError hc, rfl⟩

theorem reportsCreation_registered (hrep : replies tr = [doc]) (hdoc : Registered doc result) :
    ReportsCreation tr (.ret x) ↔ Created tr result := by
  constructor
  · intro h
    obtain ⟨id, hid, hu⟩ := h.success doc (by simp [hrep]) hdoc.1
    cases hu.symm.trans hdoc.2
    exact hid
  · intro hc
    refine ⟨⟨x, rfl⟩, fun doc' hdoc' _ => ?_, fun h => absurd hc (h result)⟩
    rw [hrep, List.mem_singleton] at hdoc'
    exact ⟨result, hc, hdoc' ▸ hdoc.2⟩

theorem not_reportsCreation_threw : ¬ ReportsCreation tr (.threw w) := by
  intro h
  obtain ⟨x, hx⟩ := h.ends
  cases hx

theorem not_reportsCreation_undef : ¬ ReportsCreation tr (.undef u) := by
  intro h
  obtain ⟨x, hx⟩ := h.ends
  cases hx

theorem Holds.atoi_eq {id : Int} (h : Holds cell id) (hpos : 0 < id) (hlt : id < 2 ^ 31) :
    atoi cell.data = id := by
  obtain ⟨n, rfl⟩ := Int.eq_ofNat_of_zero_le (Int.le_of_lt hpos)
  have htext : cell.data = toString n := h.2
  rw [htext]
  exact atoi_toString (by omega)

theorem told_pos_iff (cell : Cell) : Told cell ∧ 0 < atoi cell.data ↔
    Holds cell (atoi cell.data) ∧ 0 < atoi cell.data := by
  refine and_congr_left fun hpos => ⟨?_, fun h => .inr (.inr ⟨_, h, hpos, toInt32_lt _⟩)⟩
  rintro (h | h | ⟨id, hid, hid0, hlt⟩)
  · omega
  · omega
  · rwa [Holds.atoi_eq hid hid0 hlt]

theorem Told.le (h : Told cell) : -1 ≤ atoi cell.data := by
  obtain h | h | ⟨id, hid, hpos, hlt⟩ := h
  · omega
  · omega
  · have heq := Holds.atoi_eq hid hpos hlt
    omega

/-- A positive result is an id only if the data layer got a connection; the codes that are
tested come from a row. -/
theorem regRun_created (libs : Libs) (body : String)
    (hr : MysqlDao.CallRun .rpcFail (.regUser name pwd email) .selectResult tr r) :
    (Created tr r ↔ (∀ ev ∈ tr, Tells libs body ev) ∧ 0 < r) ∧
    (r = 0 ∨ r = -1 → ∀ ev ∈ tr, Tells libs body ev) ∧
    ((∀ ev ∈ tr, Tells libs body ev) → -1 ≤ r) := by
  cases hr with
  | noConn => simp [Created, executed]
  | refused => simp [Created, executed]
  | answered hres =>
    simp [Created, executed, selected, hres, told_pos_iff]
    exact ⟨fun h => h.imp_right .inl, Told.le⟩
  | noRow hres => simp [Created, selected, hres]
  | callThrew => simp [Created, executed]
  | selectThrew => simp [Created, selected]

theorem created_around (hX : executed X = [] ∧ selected X = [])
    (hY : executed Y = [] ∧ selected Y = []) :
    Created (X ++ tr ++ Y) n ↔ Created tr n := by
  simp only [Created, executed_append, selected_append, hX, hY, List.nil_append, List.append_nil]

theorem tells_around (form : RegisterForm libs body src email name pwd)
    (hv : src.text "varify_code" = .ok code) (hY : ∀ ev ∈ Y, Tells libs body ev) :
    (∀ ev ∈ ([⟨.acquire .redis, some conn⟩, ⟨.redisGet conn ("code_" ++ email), .ok (some code)⟩,
      ⟨.redisExists conn (email ++ "_usr"), .ok exist⟩] : Trace) ++ tr ++ Y, Tells libs body ev) ↔
    ∀ ev ∈ tr, Tells libs body ev := by
  rw [List.forall_mem_append, List.forall_mem_append]
  refine ⟨fun h => h.1.2, fun h => ⟨⟨?_, h⟩, hY⟩⟩
  simp [registerForm_readable form hv]

/-- A registration reports correctly iff the fields it reads convert, no call fails, and the
row of `@result` is a positive id below `2 ^ 31` or a text that `atoi` reads as zero or `-1`.
-/
theorem userRegister_reports_iff (hp : (libs.parse body).isSome)
    (hr : Runs (userRegister libs (.ofDao libs) body) tr e) :
    ReportsCreation tr e ↔ FieldsReadable libs body ∧ ∀ ev ∈ tr, Tells libs body ev := by
  cases userRegister_ok.ends hr with
  | badJson hnone => simp [hnone] at hp
  | unreadable hsrc hkey hw =>
    refine iff_of_false not_reportsCreation_threw fun h => ?_
    obtain ⟨s, hs⟩ := h.1 _ hsrc _ hkey
    cases hs.symm.trans hw
  | noConn => exact iff_of_false not_reportsCreation_undef (by simp)
  | getThrew => exact iff_of_false not_reportsCreation_threw (by simp)
  | absent => exact iff_of_false not_reportsCreation_undef (by simp)
  | expired form =>
    exact iff_of_true (reportsCreation_ofError rfl (by decide))
      ⟨registerForm_fields form, by simp⟩
  | codeUnreadable form hcode hv =>
    refine iff_of_false not_reportsCreation_threw fun h => ?_
    obtain ⟨code, hfound, hread⟩ := h.2 _ (.tail _ (.head _))
    cases hfound
    obtain ⟨given, hgiven⟩ := (hread.resolve_left hcode) _ form.parse
    cases hv.symm.trans hgiven
  | mismatch form _ hv =>
    exact iff_of_true (reportsCreation_ofError rfl (by decide))
      ⟨registerForm_fields form, by simp [registerForm_readable form hv]⟩
  | existsThrew => exact iff_of_false not_reportsCreation_threw (by simp)
  | exist form _ hv =>
    exact iff_of_true (reportsCreation_ofError rfl (by decide))
      ⟨registerForm_fields form, by simp [registerForm_readable form hv]⟩
  | regThrew _ _ _ hrun | regFault _ _ _ hrun =>
    obtain ⟨r, h, -⟩ := MysqlDao.regUser_runs hrun
    cases h
  | refused form _ hv hrun h0 =>
    obtain ⟨r, h, hcall⟩ := MysqlDao.regUser_runs hrun
    cases h
    rw [List.append_assoc, tells_around form hv (by simp)]
    refine iff_of_true (reportsCreation_ofError (c := .mySqlError) ?_ (by decide))
      ⟨registerForm_fields form, (regRun_created libs body hcall).2.1 h0⟩
    simp only [replies_append, MysqlDao.callRun_replies hcall]
    rfl
  | twice form _ hv hrun hdoc =>
    obtain ⟨r, h, hcall⟩ := MysqlDao.regUser_runs hrun
    cases h
    refine iff_of_false (fun h => ?_) fun h => ?_
    · obtain ⟨id, ⟨-, _, _, -, -, -, hpos⟩, hu⟩ := h.success _ (by simp [replies]) hdoc.1
      cases hu.symm.trans hdoc.2
      exact absurd hpos (by decide)
    · have hlow := (regRun_created libs body hcall).2.2 fun ev hev => h.2 ev (by simp [hev])
      exact absurd hlow (by decide)
  | registered form _ hv hrun h0 h1 h2 hdoc =>
    obtain ⟨r, h, hcall⟩ := MysqlDao.regUser_runs hrun
    cases h
    obtain ⟨hcreated, -, hlow⟩ := regRun_created libs body hcall
    rw [List.append_assoc, tells_around form hv (by simp),
      reportsCreation_registered ?_ hdoc, created_around ⟨rfl, rfl⟩ ⟨rfl, rfl⟩, hcreated]
    · constructor
      · rintro ⟨htells, -⟩
        exact ⟨registerForm_fields form, htells⟩
      · rintro ⟨-, htells⟩
        have := hlow htells
        exact ⟨htells, by omega⟩
    · simp only [replies_append, MysqlDao.callRun_replies hcall]
      rfl

def registeredDoc (uid : Int) : Json.Object :=
  [("uid", .integer uid), ("varify_code", .string "c"), ("confirm", .null), ("passwd", .null),
    ("user", .null), ("email", .string "e"), ("error", .integer 0)]

def createdTrace : Trace :=
  [⟨.acquire .redis, some 0⟩, ⟨.redisGet 0 "code_e", .ok (some "c")⟩,
    ⟨.redisExists 0 "e_usr", .ok false⟩, ⟨.acquire .mySql, some 0⟩,
    ⟨.execute 0 (.regUser "" "" "e"), .ok true⟩,
    ⟨.store 0 .selectResult, .ok ⟨true, [⟨"7", false⟩]⟩⟩,
    ⟨.push .info "User register result: 7", ()⟩, ⟨.release .mySql 0, ()⟩,
    ⟨.write (registeredDoc 7), ()⟩, ⟨.release .redis 0, ()⟩]

theorem userRegister_reports_created : ReportsCreation createdTrace (.ret true) := by
  have hrun : Runs (userRegister codeLibs (.ofDao codeLibs) codeBody) createdTrace
      (.ret true) := by
    refine .call _ (.call _ (.call _ (.call _ (.call _ (.call _ ?_)))))
    exact .call _ (.call _ (.call _ (.call _ .refl)))
  refine (userRegister_reports_iff rfl hrun).mpr ⟨registerForm_fields codeBody_form, ?_⟩
  have hid : Told ⟨"7", false⟩ := .inr (.inr ⟨7, ⟨rfl, rfl⟩, by decide, by decide⟩)
  simp [createdTrace, registerForm_readable codeBody_form rfl, StoreQueryResult.first, hid]

/-- The call is refused, and the error code of the data layer is reported as the new id. -/
theorem refused_registration_reports_success : ∃ tr e,
    Runs (userRegister codeLibs (.ofDao codeLibs) codeBody) tr e ∧ ¬ ReportsCreation tr e := by
  refine ⟨[⟨.acquire .redis, some 0⟩, ⟨.redisGet 0 "code_e", .ok (some "c")⟩,
    ⟨.redisExists 0 "e_usr", .ok false⟩, ⟨.acquire .mySql, some 0⟩,
    ⟨.execute 0 (.regUser "" "" "e"), .ok false⟩, ⟨.push .error "Failed to register user: ", ()⟩,
    ⟨.release .mySql 0, ()⟩, ⟨.write (registeredDoc 1006), ()⟩, ⟨.release .redis 0, ()⟩],
    .ret true, ?_, fun h => ?_⟩
  · refine .call _ (.call _ (.call _ (.call _ (.call _ ?_))))
    exact .call _ (.call _ (.call _ (.call _ .refl)))
  · obtain ⟨id, ⟨⟨_, _, _, hexec⟩, -⟩, -⟩ := h.success _ (.head _) rfl
    simp [executed] at hexec

end GateServer.LogicalSystem
