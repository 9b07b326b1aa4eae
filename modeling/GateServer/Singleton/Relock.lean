import GateServer.Singleton

/-!
# Locking the mutex twice

The mutex is locked again by its holder when a constructor asks for another singleton or
is left by an exception. Both follow immediately from a single answer of the environment.
-/

namespace GateServer.Singleton

open Interact

def Op.isGet : Op → Bool
  | .getInstance _ => true
  | _ => false

theorem isGet_eq_false : Op.isGet op = false ↔ ∀ other, op ≠ .getInstance other := by
  cases op <;> simp [Op.isGet]

/-- The answers after which a constructor completes: no exception, and for MySQL a port that is
a number and connected connections. `gRPCServerPool` catches exceptions, and only the first
thread's failure to start is thrown. -/
def Fine (cls : Class) : Ev → Prop
  | ⟨.currentPath, path⟩ => ∃ p, path = .ok p
  | ⟨.pathExists _, present⟩ => ∃ b, present = .ok b
  | ⟨.createDirectories _, created⟩ => created = .ok ()
  | ⟨.startThread i, started⟩ => i = 0 → started = .ok ()
  | ⟨.config, cfg⟩ => cls ≠ .gRPCServerPool →
    ∃ c : Config, cfg = .ok c ∧ (cls = .mySqlMgr → ∃ port, c.port = .ok port)
  | ⟨.newStub _, stub⟩ => cls ≠ .gRPCServerPool → stub = .ok ()
  | ⟨.connect .., connected⟩ => connected = .ok true
  | ⟨.getInstance _, _⟩ | ⟨.terminate, _⟩ => True

def AllFine (cls : Class) (met : List Ev) : Prop := ∀ ev ∈ met, Fine cls ev

/-- A constructor continues while every answer is fine, and asks for another singleton as soon
as one is not. -/
def relocks (cls : Class) : Protocol Ans where
  rely ev := ev.op.isGet = false
  guar met op := op.isGet = true ↔ ¬ AllFine cls met

def Ends (cls : Class) (met : List Ev) : Exit Unit → Prop
  | .ret _ => AllFine cls met
  | .threw _ => ¬ AllFine cls met
  | .undef _ => False

variable {cls : Class} {met : List Ev}

theorem allFine_nil : AllFine cls [] := nofun

theorem AllFine.snoc (h : AllFine cls met) (hev : Fine cls ev) : AllFine cls (met ++ [ev]) := by
  intro ev' hmem
  rcases List.mem_append.mp hmem with hmem | hmem
  · exact h ev' hmem
  · exact List.mem_singleton.mp hmem ▸ hev

theorem not_allFine_snoc (hev : ¬ Fine cls ev) : ¬ AllFine cls (met ++ [ev]) :=
  fun h => hev (h ev (by simp))

theorem ends_threw (hev : ¬ Fine cls ev) : Ends cls (met ++ [ev]) (.threw what) :=
  not_allFine_snoc hev

theorem AllFine.quiet (h : AllFine cls met) (hop : op.isGet = false) :
    (relocks cls).guar met op := by
  simp [relocks, hop, h]

-- ---------------------------------------------------------------------------
-- Each constructor
-- ---------------------------------------------------------------------------

theorem logSystem_ok : Spec (relocks .logSystem) [] logSystem (Ends .logSystem) := by
  refine spec_ask.mpr ⟨allFine_nil.quiet rfl, fun path _ => ?_⟩
  cases path with
  | error what => exact ends_threw (by simp [Fine])
  | ok currentPath =>
  have hpath : AllFine .logSystem ([] ++ [⟨.currentPath, .ok currentPath⟩]) :=
    allFine_nil.snoc ⟨_, rfl⟩
  refine spec_ask.mpr ⟨hpath.quiet rfl, fun present _ => ?_⟩
  cases present with
  | error what => exact ends_threw (by simp [Fine])
  | ok present =>
  have hfine : Fine .logSystem ⟨.pathExists (currentPath ++ "/logs"), .ok present⟩ := ⟨_, rfl⟩
  have hpresent := hpath.snoc hfine
  cases present with
  | true => exact hpresent
  | false =>
  refine spec_ask.mpr ⟨hpresent.quiet rfl, fun created _ => ?_⟩
  cases created with
  | error what => exact ends_threw (by simp [Fine])
  | ok => exact hpresent.snoc rfl

theorem startThreads_ok (h : AllFine cls met) (size i : Nat) :
    Spec (relocks cls) met (startThreads size i) (Ends cls) := by
  induction size generalizing met i with
  | zero => exact h
  | succ size ih =>
  refine spec_ask.mpr ⟨h.quiet rfl, fun started _ => ?_⟩
  cases started with
  | ok =>
    have hfine : Fine cls ⟨.startThread i, .ok ()⟩ := fun _ => rfl
    exact ih (h.snoc hfine) (i + 1)
  | error what =>
    cases i with
    | zero => exact ends_threw (by simp [Fine])
    | succ i =>
      have hfine : Fine cls ⟨.startThread (i + 1), .error what⟩ := nofun
      exact ⟨(h.snoc hfine).quiet rfl, nofun⟩

theorem newStubs_ok (hcls : cls ≠ .gRPCServerPool) (h : AllFine cls met) (address : String)
    (n : Nat) : Spec (relocks cls) met (newStubs address n) (Ends cls) := by
  induction n generalizing met with
  | zero => exact h
  | succ n ih =>
  refine spec_ask.mpr ⟨h.quiet rfl, fun stub _ => ?_⟩
  cases stub with
  | error what => exact ends_threw (by simp [Fine, hcls])
  | ok =>
    have hfine : Fine cls ⟨.newStub address, .ok ()⟩ := fun _ => rfl
    exact ih (h.snoc hfine)

theorem varfiyGrpcClient_ok :
    Spec (relocks .varfiyGrpcClient) [] varfiyGrpcClient (Ends .varfiyGrpcClient) := by
  refine spec_ask.mpr ⟨allFine_nil.quiet rfl, fun cfg _ => ?_⟩
  cases cfg with
  | error what => exact ends_threw (by simp [Fine])
  | ok cfg =>
    have hcls : Class.varfiyGrpcClient ≠ .gRPCServerPool := nofun
    have hfine : Fine .varfiyGrpcClient ⟨.config, .ok cfg⟩ := fun _ => ⟨cfg, rfl, nofun⟩
    exact newStubs_ok hcls (allFine_nil.snoc hfine) _ 4

theorem mySqlPool_ok {cfg : Config} (hport : cfg.port = .ok port) (h : AllFine .mySqlMgr met)
    (n : Nat) : Spec (relocks .mySqlMgr) met (mySqlPool cfg n) (Ends .mySqlMgr) := by
  induction n generalizing met with
  | zero => exact h
  | succ n ih =>
  simp only [mySqlPool, hport, Prog.ofExcept_ok, pure_bind]
  refine spec_ask.mpr ⟨h.quiet rfl, fun connected _ => ?_⟩
  cases connected with
  | error what => exact ends_threw (by simp [Fine])
  | ok connected =>
  cases connected with
  | true => exact ih (h.snoc rfl)
  | false =>
    -- the push wants the log queue
    exact spec_ask.mpr ⟨iff_of_true rfl (not_allFine_snoc (by simp [Fine])), nofun⟩

theorem mySqlMgr_ok : Spec (relocks .mySqlMgr) [] mySqlMgr (Ends .mySqlMgr) := by
  refine spec_ask.mpr ⟨allFine_nil.quiet rfl, fun cfg _ => ?_⟩
  cases cfg with
  | error what => exact ends_threw (by simp [Fine])
  | ok cfg =>
  cases hport : cfg.port with
  | ok port =>
    have hfine : Fine .mySqlMgr ⟨.config, .ok cfg⟩ := fun _ => ⟨cfg, rfl, fun _ => ⟨port, hport⟩⟩
    exact mySqlPool_ok hport (allFine_nil.snoc hfine) 5
  | error what =>
    have hbad : ¬ Fine .mySqlMgr ⟨.config, .ok cfg⟩ := by simp [Fine, hport]
    simp only [Prog.ofExcept_ok, pure_bind, mySqlPool, hport]
    exact ends_threw hbad

theorem newStubs_caught (h : AllFine .gRPCServerPool met) (address : String) (n : Nat) :
    Spec (relocks .gRPCServerPool) met (newStubs address n) fun met e =>
      AllFine .gRPCServerPool met ∧ e.Defined := by
  induction n generalizing met with
  | zero => exact ⟨h, trivial⟩
  | succ n ih =>
  refine spec_ask.mpr ⟨h.quiet rfl, fun stub _ => ?_⟩
  have hfine : Fine .gRPCServerPool ⟨.newStub address, stub⟩ := fun h => absurd rfl h
  cases stub with
  | error what => exact ⟨h.snoc hfine, trivial⟩
  | ok => exact ih (h.snoc hfine)

theorem gRPCServerPool_ok :
    Spec (relocks .gRPCServerPool) [] gRPCServerPool (Ends .gRPCServerPool) := by
  refine spec_tryCatch.mpr
    (Spec.mono (Q := fun met e => AllFine .gRPCServerPool met ∧ e.Defined) ?_ ?_)
  · refine spec_ask.mpr ⟨allFine_nil.quiet rfl, fun cfg _ => ?_⟩
    have hfine : Fine .gRPCServerPool ⟨.config, cfg⟩ := fun h => absurd rfl h
    cases cfg with
    | error what => exact ⟨allFine_nil.snoc hfine, trivial⟩
    | ok cfg => exact newStubs_caught (allFine_nil.snoc hfine) _ 300
  · rintro met e ⟨h, hdefined⟩
    cases e with
    | ret => exact h
    | threw => exact h
    | undef => exact hdefined

theorem construct_ok (cls : Class) : Spec (relocks cls) [] (construct cls) (Ends cls) := by
  cases cls with
  | logSystem => exact logSystem_ok
  | logQueue => exact allFine_nil
  | asioIOServicePool => exact startThreads_ok allFine_nil 2 0
  | logicalSystem => exact allFine_nil
  | redisMgr => exact allFine_nil
  | gRPCServerPool => exact gRPCServerPool_ok
  | varfiyGrpcClient => exact varfiyGrpcClient_ok
  | mySqlMgr => exact mySqlMgr_ok

-- ---------------------------------------------------------------------------
-- Who locks the mutex that it holds
-- ---------------------------------------------------------------------------

/-- The next step is to lock the mutex, for another singleton or in `~singleton`. -/
def Place.Relocks : Place → Prop
  | .build _ _ (.call (.getInstance _) _) => True
  | .build _ _ (.done (.threw _)) => True
  | _ => False

def Place.Fine : Place → Prop
  | .build cls met _ => AllFine cls met
  | _ => True

theorem relocks_iff {p : Place} (h : p.Knows s) : p.Relocks ↔ ¬ p.Fine := by
  cases p with
  | build cls met rest =>
    obtain ⟨-, -, hsteps, hmet⟩ := h
    have hrely : ∀ ev ∈ met, (relocks cls).rely ev := fun ev hev => isGet_eq_false.mpr (hmet ev hev)
    have hspec := (construct_ok cls).steps hsteps hrely
    cases rest with
    | done e =>
      rw [List.nil_append] at hspec
      have hends : Ends cls met e := hspec
      cases e with
      | ret => exact iff_of_false id fun h => h hends
      | threw => exact iff_of_true trivial hends
      | undef => exact hends.elim
    | call op next =>
      rw [List.nil_append] at hspec
      have hguar : op.isGet = true ↔ ¬ AllFine cls met := hspec.1
      cases op with
      | getInstance other => exact iff_of_true trivial (hguar.mp rfl)
      | _ => exact iff_of_false id fun h => Bool.noConfusion (hguar.mpr h)
  | _ => exact iff_of_false id fun h => h trivial

/-- No thread locks the mutex that it holds, and there is one object for each class. -/
structure Safe (c : Monitor Shared Thread) : Prop where
  noRelock : ∀ t ∈ c.threads, ¬ t.place.Relocks
  unique : Unique c

/-- No thread locks the mutex that it holds iff every answer to a constructor was fine. No
class ever has two objects. -/
theorem construction_safe_iff (hr : machine.Reachable Machine.Any (start n) c) :
    Safe c ↔ ∀ t ∈ c.threads, t.place.Fine := by
  have hiff (t : Thread) (ht : t ∈ c.threads) : ¬ t.place.Relocks ↔ t.place.Fine := by
    rw [relocks_iff (knows hr t ht).place]
    exact not_not
  constructor
  · intro h t ht
    exact (hiff t ht).mp (h.noRelock t ht)
  · intro h
    exact ⟨fun t ht => (hiff t ht).mpr (h t ht), unique hr⟩

theorem construction_safe_mySqlMgr : ∃ c, machine.Reachable Machine.Any (start 3) c ∧
    c.threads.map (·.got) =
      [[(.mySqlMgr, some 0)], [(.mySqlMgr, some 0)], [(.logQueue, some 1)]] ∧ Safe c := by
  let cfg : Config := fun _ _ => ""
  have hcall (s : Shared) (cls : Class) : Next s ⟨.out, []⟩ .quiet s ⟨.lock cls, []⟩ := .call
  have hconfig (s : Shared) : Next s ⟨.build .mySqlMgr [] mySqlMgr, []⟩ .quiet s
      ⟨.build .mySqlMgr [⟨.config, .ok cfg⟩] (mySqlPool cfg 5), []⟩ :=
    .ask _ (isGet_eq_false.mp rfl)
  have hconnect (s : Shared) (met : List Ev) (n : Nat) :
      Next s ⟨.build .mySqlMgr met (mySqlPool cfg (n + 1)), []⟩ .quiet s
        ⟨.build .mySqlMgr (met ++ [⟨.connect "" "" "" "" 3306, .ok true⟩]) (mySqlPool cfg n), []⟩ :=
    .ask _ (isGet_eq_false.mp rfl)
  have hbuilding : machine.Reachable Machine.Any (start 3) ⟨⟨true, fun _ => .fresh, 0⟩,
      [⟨.build .mySqlMgr [] mySqlMgr, []⟩, ⟨.out, []⟩, ⟨.out, []⟩]⟩ :=
    Machine.Reachable.start.path [] [_, _] (.step (hcall _ .mySqlMgr) (.step (.lock rfl)
      (.step (.first rfl) (.step (.isNull rfl) .refl)))) fun _ _ _ => trivial
  have hcame := hbuilding.path [_] [_] (.step (hcall _ .mySqlMgr) .refl) fun _ _ _ => trivial
  have hconnected := hcame.path [] [_, _] (.step (hconfig _) (.step (hconnect _ _ 4)
    (.step (hconnect _ _ 3) (.step (hconnect _ _ 2) (.step (hconnect _ _ 1)
    (.step (hconnect _ _ 0) .refl)))))) fun _ _ _ => trivial
  have hmade := hconnected.path [] [_, _] (.step .built (.step .assign (.step .setFlag
    (.step .unlock (.step .copy .refl))))) fun _ _ _ => trivial
  have hshared := hmade.path [_] [_] (.step (.lock rfl) (.step (.passed rfl) (.step .unlock
    (.step .copy .refl)))) fun _ _ _ => trivial
  have hqueue := hshared.path [_, _] [] (.step (hcall _ .logQueue) (.step (.lock rfl)
    (.step (.first rfl) (.step (.isNull rfl) (.step .built (.step .assign (.step .setFlag
    (.step .unlock (.step .copy .refl))))))))) fun _ _ _ => trivial
  refine ⟨_, hqueue, rfl, (construction_safe_iff hqueue).mpr ?_⟩
  simp [Place.Fine]

def building (cls : Class) (met : List Ev) (rest : Ctor) : Monitor Shared Thread :=
  ⟨⟨true, fun _ => .fresh, 0⟩, [⟨.build cls met rest, []⟩]⟩

theorem building_reachable (cls : Class) :
    machine.Reachable Machine.Any (start 1) (building cls [] (construct cls)) :=
  Machine.Reachable.start.path [] []
    (.step .call (.step (.lock rfl) (.step (.first rfl) (.step (.isNull rfl) .refl))))
    fun _ _ _ => trivial

/-- A connection of the MySQL pool is not connected, and its constructor asks for the log queue
while `getInstance` holds the mutex. -/
theorem unconnected_relocks : ∃ c, machine.Reachable Machine.Any (start 1) c ∧ ¬ Safe c := by
  let cfg : Config := fun _ _ => ""
  have hconfig : machine.Reachable Machine.Any (start 1)
      (building .mySqlMgr [⟨.config, .ok cfg⟩] (mySqlPool cfg 5)) :=
    (building_reachable .mySqlMgr).quiet [] [] (.ask _ (isGet_eq_false.mp rfl)) trivial
  have hconnect : machine.Reachable Machine.Any (start 1) (building .mySqlMgr
      [⟨.config, .ok cfg⟩, ⟨.connect "" "" "" "" 3306, .ok false⟩]
      (.call (.getInstance .logQueue) fun _ => mySqlPool cfg 4)) :=
    hconfig.quiet [] [] (.ask _ (isGet_eq_false.mp rfl)) trivial
  exact ⟨_, hconnect, fun h => h.noRelock _ (.head _) trivial⟩

end GateServer.Singleton
