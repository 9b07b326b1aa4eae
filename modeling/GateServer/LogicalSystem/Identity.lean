import GateServer.LogicalSystem.Login

/-!
# The identity in a login

A login asks for the token of the account that was authenticated and then tells the client
the id of the account that its email belongs to.
-/

namespace GateServer.LogicalSystem

open Interact

/-- The accounts as the procedures see them: the id that an email is registered under, and the
account that a login authenticates. Ids are positive and below `2 ^ 31`. -/
structure Database where
  registered : String → Option Nat
  authenticate : (email pwd : String) → (uid : Nat) → (isEmail : Int) → Option Nat
  registered_small : registered email = some n → 0 < n ∧ n < 2 ^ 31
  authenticate_small : authenticate email pwd uid isEmail = some n → 0 < n ∧ n < 2 ^ 31

def Database.uidCell (db : Database) (email : String) : Cell :=
  match db.registered email with
  | some n => ⟨toString n, false⟩
  | none => ⟨"NULL", true⟩

def Database.Authenticates (db : Database) (libs : Libs) (body : String) (n : Nat) : Prop :=
  ∃ email pwd isEmail user, LoginForm libs body email pwd isEmail user ∧
    db.authenticate email pwd user.uid isEmail = some n

def Database.Registers (db : Database) (libs : Libs) (body : String) (n : Nat) : Prop :=
  ∃ email pwd isEmail user, LoginForm libs body email pwd isEmail user ∧
    db.registered email = some n

/-- The answers of a database with these accounts. -/
def Database.Answers (db : Database) (libs : Libs) (body : String) : Ev → Prop
  | ⟨.store _ .selectLoginResult, res⟩ => ∀ r cell, res = .ok r → r.first = some cell →
    ((∃ n, db.Authenticates libs body n) ↔ atoi cell.data ≠ -1 ∧ atoi cell.data ≠ -2)
  | ⟨.store _ .selectUserUid, res⟩ => ∀ n r, db.Authenticates libs body n → res = .ok r →
    r = ⟨true, [⟨toString n, false⟩]⟩
  | ⟨.store _ (.selectGetUserUid email), res⟩ => ∀ r, res = .ok r → r = ⟨true, [db.uidCell email]⟩
  | _ => True

/-- A reply that reports success names the account that was authenticated, and its token is for
that account. -/
def KeepsIdentity (db : Database) (libs : Libs) (body : String) (tr : Trace)
    (e : Exit Bool) : Prop :=
  e.Defined ∧ ∀ doc ∈ replies tr, doc.Succeeds → ∃ n status respon,
    db.Authenticates libs body n ∧ ((n : Int), status, respon) ∈ chatServers tr ∧
      doc.member "uid" = some (.integer n)

def LetIn (tr : Trace) : Prop :=
  ∃ uid status respon, (uid, status, respon) ∈ chatServers tr ∧ status.ok = true

theorem letIn_of_mem {stub : Conn} {n : Int} {respon : GetChatServerRsp}
    (hmem : (⟨.getChatServer stub n, (status, respon)⟩ : Ev) ∈ tr) (hok : status.ok = true) :
    LetIn tr :=
  ⟨n, status, respon, List.mem_filterMap.mpr ⟨_, hmem, rfl⟩, hok⟩

theorem letIn_letInTrace {trl tru : Trace} {stub : Conn} {n : Int} {respon : GetChatServerRsp}
    {doc : Json.Object} {l : LogLevel} {m : String} (hok : status.ok = true) :
    LetIn (letInTrace trl tru stub n status respon doc l m) := by
  have hmem : (⟨.getChatServer stub n, (status, respon)⟩ : Ev) ∈
      letInTrace trl tru stub n status respon doc l m := by simp
  exact letIn_of_mem hmem hok

/-- The answers after which a login proceeds: a stub, a row where one is read, and a second
lookup that does not throw. -/
@[simp] def Proceeds : Ev → Prop
  | ⟨.acquire .status, stub⟩ => ∃ s, stub = some s
  | ⟨.store _ .selectLoginResult, res⟩ => ∀ r, res = .ok r → ∃ cell, r.first = some cell
  | ⟨.store _ (.selectGetUserUid _), res⟩ => ∃ r, res = .ok r
  | _ => True

def SendsOwnEmail (db : Database) (libs : Libs) (body : String) (tr : Trace) : Prop :=
  LetIn tr → (∀ conn, ⟨.acquire .mySql, conn⟩ ∈ tr → ∃ c, conn = some c) ∧
    ∀ n, db.Authenticates libs body n → db.Registers libs body n

theorem loginForm_unique (form : LoginForm libs body mail pwd isEmail user)
    (form' : LoginForm libs body mail' pwd' isEmail' user') :
    mail' = mail ∧ pwd' = pwd ∧ isEmail' = isEmail ∧ user' = user := by
  obtain ⟨src, name, hp, he, -, hw, hm, hu⟩ := form.src
  obtain ⟨src', name', hp', he', -, hw', hm', hu'⟩ := form'.src
  cases hp.symm.trans hp'
  cases he.symm.trans he'
  cases hw.symm.trans hw'
  cases hm.symm.trans hm'
  refine ⟨rfl, rfl, rfl, ?_⟩
  have huid : user'.uid = user.uid := by
    by_cases h0 : isEmail = 0
    · obtain ⟨uid, huid, heq⟩ := hu h0
      obtain ⟨uid', huid', heq'⟩ := hu' h0
      cases huid.symm.trans huid'
      exact heq'.trans heq.symm
    · exact (form'.byEmail h0).trans (form.byEmail h0).symm
  have hemail := form'.email.trans form.email.symm
  have hpasswd := form'.passwd.trans form.passwd.symm
  cases user
  cases user'
  simp_all

theorem authenticates_iff {db : Database} (form : LoginForm libs body email pwd isEmail user) :
    db.Authenticates libs body n ↔ db.authenticate email pwd user.uid isEmail = some n := by
  constructor
  · rintro ⟨_, _, _, _, form', h⟩
    obtain ⟨rfl, rfl, rfl, rfl⟩ := loginForm_unique form form'
    exact h
  · intro h
    exact ⟨_, _, _, _, form, h⟩

theorem registers_iff {db : Database} (form : LoginForm libs body email pwd isEmail user) :
    db.Registers libs body n ↔ db.registered email = some n := by
  constructor
  · rintro ⟨_, _, _, _, form', h⟩
    obtain ⟨rfl, rfl, rfl, rfl⟩ := loginForm_unique form form'
    exact h
  · intro h
    exact ⟨_, _, _, _, form, h⟩

theorem loginRun_account {db : Database}
    (hlogin : MysqlDao.LoginRun pwd user isEmail tr (.ret (result, user')))
    (h0 : result ≠ ErrorCodes.mySqlError) (h1 : result ≠ -1) (h2 : result ≠ -2)
    (hdb : ∀ ev ∈ tr, db.Answers libs body ev) :
    ∃ n, db.Authenticates libs body n ∧ (0 < n ∧ n < 2 ^ 31) ∧ user'.uid = n := by
  obtain ⟨-, res, cell, uid, hsel, hres, rfl, huid, rfl⟩ := loginRun_accepted hlogin h0
  obtain ⟨conn, hsel⟩ := mem_selected hsel
  obtain ⟨conn', huid⟩ := mem_selected huid
  obtain ⟨n, hn⟩ := (hdb _ hsel _ _ rfl hres).mpr ⟨h1, h2⟩
  cases hdb _ huid n _ hn rfl
  obtain ⟨_, _, _, _, -, hauth⟩ := id hn
  obtain ⟨hpos, hlt⟩ := db.authenticate_small hauth
  refine ⟨n, hn, ⟨hpos, hlt⟩, ?_⟩
  simp only [MysqlDao.withUid, StoreQueryResult.first, if_true, List.head?_cons, atoi_toString hlt]
  exact toUInt64_of_small (by omega)

def ReadsNumbers (libs : Libs) : Prop :=
  ∀ n : Nat, 0 < n → n < 2 ^ 31 → libs.truth ⟨toString n, false⟩ = some true

theorem truth_uidCell {db : Database} (hlibs : ReadsNumbers libs)
    (hreg : db.registered email = some n) : libs.truth (db.uidCell email) = some true := by
  simp only [Database.uidCell, hreg]
  obtain ⟨hpos, hlt⟩ := db.registered_small hreg
  exact hlibs n hpos hlt

/-- A second lookup with a connection gives the id registered for the email, or zero. -/
theorem uidRun_registered {db : Database} (hlibs : ReadsNumbers libs)
    (hr : MysqlDao.UidRun libs email tr (.ret uid)) (hdb : ∀ ev ∈ tr, db.Answers libs body ev) :
    uid = 0 ∧ ⟨.acquire .mySql, none⟩ ∈ tr ∨
      uid = (db.registered email).getD 0 ∧
        ∀ conn, ⟨.acquire .mySql, conn⟩ ∈ tr → ∃ c, conn = some c := by
  have hcell {res : StoreQueryResult} {conn : Conn}
      (hmem : (⟨.store conn (.selectGetUserUid email), .ok res⟩ : Ev) ∈ tr) :
      res = ⟨true, [db.uidCell email]⟩ := hdb _ hmem _ rfl
  cases hr with
  | noConn => exact .inl ⟨rfl, .head _⟩
  | failed hok =>
    rw [hcell (.tail _ (.head _))] at hok
    cases hok
  | zero hok hrows htruth =>
    rw [hcell (.tail _ (.head _))] at hrows
    cases hrows
    refine .inr ⟨?_, by simp⟩
    cases hreg : db.registered email with
    | none => rfl
    | some n => cases htruth.symm.trans (truth_uidCell hlibs hreg)
  | answered hok hrows htruth =>
    rw [hcell (.tail _ (.head _))] at hrows
    cases hrows
    refine .inr ⟨?_, by simp⟩
    cases hreg : db.registered email with
    | none =>
      simp only [Database.uidCell, hreg]
      decide
    | some n =>
      have hlt := (db.registered_small hreg).2
      simp only [Database.uidCell, hreg, atol_toString (show n < 2 ^ 63 by omega)]
      exact toUInt64_of_small (by omega)

theorem uidRun_unregistered {db : Database} (hlibs : ReadsNumbers libs)
    (hr : MysqlDao.UidRun libs email tr (.undef u)) (hdb : ∀ ev ∈ tr, db.Answers libs body ev)
    (hgo : ∀ ev ∈ tr, Proceeds ev) : db.registered email = none := by
  cases hr with
  | selectThrew =>
    obtain ⟨r, h⟩ := hgo _ (.tail _ (.head _))
    cases h
  | noRow hok hrows =>
    cases hdb _ (.tail _ (.head _)) _ rfl
    cases hrows
  | noTruth hok hrows htruth =>
    cases hdb _ (.tail _ (.head _)) _ rfl
    cases hrows
    cases hreg : db.registered email with
    | none => rfl
    | some n => cases htruth.symm.trans (truth_uidCell hlibs hreg)

theorem keepsIdentity_turnedDown {db : Database} (hrep : replies tr = [doc]) (hd : TurnedDown doc) :
    KeepsIdentity db libs body tr (.ret x) := by
  refine ⟨trivial, fun doc' hdoc hs => ?_⟩
  rw [hrep, List.mem_singleton] at hdoc
  exact absurd (hdoc ▸ hs) hd.1.not_succeeds

theorem keepsIdentity_letIn {db : Database} {tru : Trace}
    (hlogin : MysqlDao.LoginRun pwd user isEmail trl r) (huid : MysqlDao.UidRun libs email tru r')
    (hd : LoggedIn doc uid token) :
    KeepsIdentity db libs body (letInTrace trl tru stub n status respon doc l m) (.ret x) ↔
      ∃ k : Nat, db.Authenticates libs body k ∧ n = k ∧ uid = k := by
  rw [KeepsIdentity, (letIn_reads hlogin huid).1, (letIn_reads hlogin huid).2]
  constructor
  · rintro ⟨-, h⟩
    obtain ⟨k, _, _, hk, hmem, hmember⟩ := h doc (.head _) hd.1
    cases List.mem_singleton.mp hmem
    have hval := hd.2.1.symm.trans hmember
    simp only [Option.some.injEq, Json.Value.integer.injEq] at hval
    exact ⟨k, hk, rfl, by omega⟩
  · rintro ⟨k, hk, rfl, rfl⟩
    refine ⟨trivial, fun doc' hdoc _ => ⟨uid, status, respon, hk, .head _, ?_⟩⟩
    rw [List.mem_singleton.mp hdoc, hd.2.1]

theorem loginRun_proceeds (hr : MysqlDao.LoginRun pwd user isEmail tr e) :
    (∀ ev ∈ tr, Proceeds ev) ↔ e.Defined := by
  cases hr with
  | answered hres => simp [hres]
  | uidThrew hres => simp [hres]
  | noRow hres => simp [hres]
  | _ => simp

theorem uidRun_proceeds (hr : MysqlDao.UidRun libs email tr (.ret uid)) :
    ∀ ev ∈ tr, Proceeds ev := by
  cases hr <;> simp

theorem letIn_connected (hr : MysqlDao.LoginRun pwd user isEmail tr (.ret (result, user')))
    (h0 : result ≠ ErrorCodes.mySqlError) :
    ∀ conn, ⟨.acquire .mySql, conn⟩ ∈ tr → ∃ c, conn = some c := by
  cases hr with
  | answered => simp
  | _ => exact absurd rfl h0

theorem letIn_keepsIdentity_iff {db : Database} (hlibs : ReadsNumbers libs)
    (form : LoginForm libs body email pwd isEmail user)
    (hlogin : MysqlDao.LoginRun pwd user isEmail trl (.ret (result, user')))
    (h0 : result ≠ ErrorCodes.mySqlError) (h1 : result ≠ -1) (h2 : result ≠ -2)
    (hok : status.ok = true) (huid : MysqlDao.UidRun libs email tru (.ret uid))
    (hd : LoggedIn doc uid token)
    (hdb : ∀ ev ∈ letInTrace trl tru stub (toInt32 user'.uid) status respon doc l m,
      db.Answers libs body ev) :
    KeepsIdentity db libs body
        (letInTrace trl tru stub (toInt32 user'.uid) status respon doc l m) (.ret x) ↔
      (∀ ev ∈ letInTrace trl tru stub (toInt32 user'.uid) status respon doc l m, Proceeds ev) ∧
        SendsOwnEmail db libs body
          (letInTrace trl tru stub (toInt32 user'.uid) status respon doc l m) := by
  obtain ⟨n, hn, ⟨hpos, hlt⟩, hid⟩ := loginRun_account hlogin h0 h1 h2
    fun ev hmem => hdb ev (by simp [hmem])
  have hunique {k : Nat} (hk : db.Authenticates libs body k) : k = n :=
    Option.some.inj (((authenticates_iff form).mp hk).symm.trans ((authenticates_iff form).mp hn))
  rw [keepsIdentity_letIn hlogin huid hd, hid, toInt32_of_small (by omega) (by omega)]
  constructor
  · rintro ⟨k, hk, -, rfl⟩
    cases hunique hk
    obtain ⟨rfl, -⟩ | ⟨hreg, hopen⟩ := uidRun_registered hlibs huid
      fun ev hmem => hdb ev (by simp [hmem])
    · exact absurd hpos (by decide)
    refine ⟨?_, fun _ => ⟨fun conn hmem => ?_, fun k hk => ?_⟩⟩
    · simp only [List.forall_mem_append]
      refine ⟨⟨⟨⟨⟨⟨(loginRun_proceeds hlogin).mpr trivial, ?_⟩, ?_⟩, uidRun_proceeds huid⟩,
        ?_⟩, ?_⟩, ?_⟩ <;> simp
    · simp only [List.mem_append, List.mem_singleton, Event.mk.injEq, reduceCtorEq, false_and,
        or_false] at hmem
      rcases hmem with (hmem | ⟨hpool, -⟩) | hmem
      · exact letIn_connected hlogin h0 conn hmem
      · cases hpool
      · exact hopen conn hmem
    · rw [registers_iff form, hunique hk]
      cases h : db.registered _ with
      | none => rw [hreg, h] at hpos; cases hpos
      | some k => rw [hreg, h]; rfl
  · rintro ⟨-, howns⟩
    obtain ⟨hopen, hown⟩ := howns (letIn_letInTrace hok)
    refine ⟨n, hn, rfl, ?_⟩
    obtain ⟨-, hnone⟩ | ⟨hreg, -⟩ := uidRun_registered hlibs huid
      fun ev hmem => hdb ev (by simp [hmem])
    · obtain ⟨c, hc⟩ := hopen none (by simp [hnone])
      cases hc
    · rw [hreg, (registers_iff form).mp (hown n hn)]
      rfl

/-- Over the accounts of `db`, a login keeps the identity iff it proceeds to its end and, when
it is accepted, has sent the email of the account that it authenticates. -/
theorem userLogin_keepsIdentity_iff (db : Database) (hlibs : ReadsNumbers libs)
    (hr : Runs (userLogin libs (.ofDao libs) body) tr e)
    (hdb : ∀ ev ∈ tr, db.Answers libs body ev) :
    KeepsIdentity db libs body tr e ↔
      (∀ ev ∈ tr, Proceeds ev) ∧ SendsOwnEmail db libs body tr := by
  cases userLogin_ok.ends hr with
  | badJson =>
    refine iff_of_true (keepsIdentity_turnedDown rfl ⟨Json.Object.fails_ofError (by simp), rfl⟩)
      ⟨by simp, ?_⟩
    rintro ⟨_, _, _, hmem, -⟩
    simp [chatServers] at hmem
  | unreadable =>
    refine iff_of_true ⟨trivial, by simp [replies]⟩ ⟨by simp, ?_⟩
    rintro ⟨_, _, _, hmem, -⟩
    simp [chatServers] at hmem
  | loginThrew _ hrun => exact (loginUser_not_threw hrun).elim
  | loginFault _ hrun =>
    exact iff_of_false And.left fun h =>
      (loginRun_proceeds (MysqlDao.loginUser_ok.ends hrun)).mp h.1
  | rejected _ hrun _ hd =>
    have hlogin := MysqlDao.loginUser_ok.ends hrun
    obtain ⟨hreplies, hservers⟩ := MysqlDao.loginRun_quiet hlogin
    refine iff_of_true (keepsIdentity_turnedDown ?_ hd) ⟨?_, ?_⟩
    · simp only [replies_append, hreplies]
      rfl
    · simp only [List.forall_mem_append]
      exact ⟨⟨(loginRun_proceeds hlogin).mpr trivial, by simp⟩, by simp⟩
    · rintro ⟨_, _, _, hmem, -⟩
      simp only [chatServers_append, hservers] at hmem
      simp [chatServers] at hmem
  | noStub =>
    refine iff_of_false And.left fun h => ?_
    obtain ⟨s, hs⟩ := h.1 ⟨.acquire .status, none⟩ (by simp)
    cases hs
  | rpcFailed _ hrun _ _ _ hok hd =>
    have hlogin := MysqlDao.loginUser_ok.ends hrun
    obtain ⟨hreplies, hservers⟩ := MysqlDao.loginRun_quiet hlogin
    refine iff_of_true (keepsIdentity_turnedDown ?_ hd) ⟨?_, ?_⟩
    · simp only [replies_append, hreplies]
      rfl
    · simp only [List.forall_mem_append]
      refine ⟨⟨⟨⟨⟨(loginRun_proceeds hlogin).mpr trivial, ?_⟩, ?_⟩, ?_⟩, ?_⟩, ?_⟩ <;> simp
    · rintro ⟨n, status', respon', hmem, hok'⟩
      simp only [chatServers_append, hservers] at hmem
      obtain ⟨-, rfl, -⟩ := Prod.mk.injEq .. ▸ Prod.mk.injEq .. ▸ List.mem_singleton.mp hmem
      cases hok.symm.trans hok'
  | idThrew _ _ _ _ _ _ hrun => exact (getUserUid_not_threw hrun).elim
  | idFault form hrun h0 h1 h2 hok hrun' =>
    refine iff_of_false And.left fun ⟨hgo, howns⟩ => ?_
    obtain ⟨n, hn, -⟩ := loginRun_account (MysqlDao.loginUser_ok.ends hrun) h0 h1 h2
      fun ev hmem => hdb ev (by simp [hmem])
    have hnone := uidRun_unregistered hlibs (MysqlDao.getUserUid_ok.ends hrun')
      (fun ev hmem => hdb ev (by simp [hmem])) fun ev hmem => hgo ev (by simp [hmem])
    obtain ⟨-, hreg⟩ :=
      howns (letIn_of_mem (List.mem_append_left _ (List.mem_append_right _ (.head _))) hok)
    cases hnone.symm.trans ((registers_iff form).mp (hreg n hn))
  | loggedIn form hrun h0 h1 h2 hok hrun' hd =>
    exact letIn_keepsIdentity_iff hlibs form (MysqlDao.loginUser_ok.ends hrun) h0 h1 h2 hok
      (MysqlDao.getUserUid_ok.ends hrun') hd hdb

-- ---------------------------------------------------------------------------
-- Two accounts
-- ---------------------------------------------------------------------------

theorem ofBodies_readsNumbers (bodies : List (String × Json.Value)) :
    ReadsNumbers (.ofBodies bodies) := by
  intro n hpos hlt
  have hne : toString n ≠ "0" := by
    intro h
    have hn : (n : Int) = atoi "0" := by rw [← h, atoi_toString hlt]
    have h0 : atoi "0" = 0 := by decide
    omega
  simp only [Libs.ofBodies, Option.some.injEq, bne_iff_ne]
  exact hne

def twoAccounts (owner : Nat) (h : 0 < owner ∧ owner < 2 ^ 31) : Database where
  registered email := if email = "e" then some owner else none
  authenticate _ _ uid _ := if uid = 7 then some 7 else none
  registered_small := by
    intro email n hn
    split at hn
    · cases hn
      exact h
    · cases hn
  authenticate_small := by
    intro _ _ uid _ n hn
    split at hn
    · cases hn
      decide
    · cases hn

theorem twoAccounts_authenticates :
    (twoAccounts owner h).Authenticates loginLibs loginBody n ↔ n = 7 := by
  rw [authenticates_iff loginBody_form]
  simp [twoAccounts, eq_comm]

theorem loginTrace_answers (hcell : (twoAccounts owner h).uidCell "e" = ⟨cell, false⟩) :
    ∀ ev ∈ loginTrace error cell uid, (twoAccounts owner h).Answers loginLibs loginBody ev := by
  have h0 : atoi "0" = 0 := by decide
  simp [loginTrace, Database.Answers, StoreQueryResult.first, twoAccounts_authenticates, hcell]
  refine ⟨?_, rfl⟩
  rintro _ _ rfl - hc
  cases hc
  simp [h0]

theorem loginLibs_readsNumbers : ReadsNumbers loginLibs := ofBodies_readsNumbers _

theorem userLogin_keepsIdentity_own : KeepsIdentity (twoAccounts 7 (by decide)) loginLibs loginBody
    (loginTrace 0 "7" 7) (.ret true) := by
  refine (userLogin_keepsIdentity_iff _ loginLibs_readsNumbers
    (loginTrace_runs 0 (.inl ⟨rfl, rfl⟩)) (loginTrace_answers rfl)).mpr ⟨?_, fun _ => ⟨?_, ?_⟩⟩
  · simp [loginTrace, StoreQueryResult.first]
  · simp [loginTrace]
  · intro n hn
    cases twoAccounts_authenticates.mp hn
    exact (registers_iff loginBody_form).mpr rfl

/-- Account 7 logs in with the email of account 8 and is answered as account 8. -/
theorem borrowed_email_changes_identity : ∃ tr e,
    Runs (userLogin loginLibs (.ofDao loginLibs) loginBody) tr e ∧
      (∀ ev ∈ tr, (twoAccounts 8 (by decide)).Answers loginLibs loginBody ev) ∧
      ¬ KeepsIdentity (twoAccounts 8 (by decide)) loginLibs loginBody tr e := by
  refine ⟨loginTrace 0 "8" 8, .ret true, loginTrace_runs 0 (.inr ⟨rfl, rfl⟩),
    loginTrace_answers rfl, fun h => ?_⟩
  obtain ⟨n, _, _, hn, -, huid⟩ := h.2 _ (.head _) rfl
  cases twoAccounts_authenticates.mp hn
  cases huid

end GateServer.LogicalSystem
