import GateServer.HttpConnection
import GateServer.LogicalSystem.Faults

/-!
# One response for each request

A GET request has exactly one response, a POST request has one if its handler returns, and a
request with another method has none.
-/

namespace GateServer.HttpConnection

open Interact LogicalSystem

variable {libs : Libs} {iterate : Params → Params} {request : HttpRequest}

def AnsweredOnce (tr : HttpTrace) : Prop := ∃ response, written tr = [response]

def Answerable (libs : Libs) (request : HttpRequest) (tr : HttpTrace) : Prop :=
  match request.method with
  | .get => True
  | .post => (∀ w, ⟨.remoteEndpoint, .error w⟩ ∉ tr) ∧
      Serviceable libs request.body (asked tr) request.target.text
  | .other _ => False

-- ---------------------------------------------------------------------------
-- The route tables
-- ---------------------------------------------------------------------------

def Handled (h h' : HttpTrace) (e : Exit Bool) : Prop :=
  ∃ tr found, h' = h ++ tr ∧ e = .ret found ∧ written tr = []

theorem printParams_ok (i : Nat) (params : Params) {h : HttpTrace} :
    Spec .any h (printParams i params) fun h' e =>
      ∃ tr, h' = h ++ tr ∧ e = .ret () ∧ written tr = [] := by
  induction params generalizing i h with
  | nil => exact ⟨[], by simp, rfl, rfl⟩
  | cons p rest ih =>
    refine .call fun _ => .call fun _ => (ih (i + 1)).mono ?_
    rintro h' e ⟨tr, rfl, rfl, htr⟩
    exact ⟨_, (List.append_assoc ..).trans (List.append_assoc ..), rfl, htr⟩

theorem handleGet_ok (path : String) (params : Params) :
    Spec .any [] (handleGet iterate path params) (Handled []) := by
  unfold handleGet
  cases hl : (getHandlers iterate).lookup path with
  | none => exact .call fun _ => ⟨_, false, rfl, rfl, rfl⟩
  | some handler =>
    obtain ⟨-, rfl⟩ : path = "/get_test" ∧ handler = getTest iterate := by
      simpa [getHandlers] using mem_of_lookup hl
    refine .call fun _ => .call fun _ => .call fun _ => ?_
    apply (printParams_ok 0 (iterate params)).bind
    rintro h' e ⟨tr, rfl, rfl, htr⟩
    exact ⟨_, true, rfl, rfl, by simpa [written] using htr⟩

/-- The runs of a POST request through its table. -/
inductive PostRun (libs : Libs) (url body : String) : HttpTrace → Exit Bool → Prop
  | peerGone : PostRun libs url body
      [⟨.op (.push l m), ()⟩, ⟨.remoteEndpoint, .error w⟩] (.threw w)
  | unregistered : (postHandlers libs (.ofDao libs)).lookup url = none → PostRun libs url body
      [⟨.op (.push l m), ()⟩, ⟨.remoteEndpoint, .ok ip⟩, ⟨.op (.push l' m'), ()⟩] (.ret false)
  | handled : (url, handler) ∈ postHandlers libs (.ofDao libs) →
      Runs (handler body) (asked tr) e → (∀ ev ∈ tr, ∃ op, ev.op = .op op) → PostRun libs url body
      ([⟨.op (.push l m), ()⟩, ⟨.remoteEndpoint, .ok ip⟩, ⟨.op (.push l' m'), ()⟩] ++ tr)
      (e.map fun _ => true)

theorem handlePost_ok (url body : String) :
    Spec .any [] (handlePost libs url body) (PostRun libs url body) := by
  unfold handlePost
  cases hl : (postHandlers libs (.ofDao libs)).lookup url with
  | none =>
    refine .call fun _ => .call fun ip => ?_
    cases ip with
    | error w => exact .peerGone
    | ok ip => exact .call fun _ => .unregistered hl
  | some handler =>
    refine .call fun _ => .call fun ip => ?_
    cases ip with
    | error w => exact .peerGone
    | ok ip =>
      refine .call fun _ => (spec_http (handler body)).bind ?_
      rintro h' e ⟨tr, rfl, hrun, hops⟩
      have hroute := mem_of_lookup hl
      cases e with
      | ret x => exact .handled hroute hrun hops
      | threw w => exact .handled hroute hrun hops
      | undef u => exact .handled hroute hrun hops

theorem postRun_written (hr : PostRun libs url body tr e) : written tr = [] := by
  cases hr with
  | peerGone => rfl
  | unregistered => rfl
  | handled _ _ hops => exact (written_append ..).trans (written_of_ops hops)

theorem asked_prelude (tr : HttpTrace) : asked ([⟨.op (.push l m), ()⟩, ⟨.remoteEndpoint, ip⟩,
      ⟨.op (.push l' m'), ()⟩] ++ tr) = [⟨.push l m, ()⟩, ⟨.push l' m', ()⟩] ++ asked tr := rfl

/-- The table answers a POST request unless the peer is gone or the handler does not return. -/
theorem postRun_returns (hr : PostRun libs url body tr e) : e.Defined ∧ ¬ e.Threw ↔
    (∀ w, ⟨.remoteEndpoint, .error w⟩ ∉ tr) ∧ Serviceable libs body (asked tr) url := by
  cases hr with
  | @peerGone l m w =>
    exact iff_of_false (fun h => h.2 trivial) fun h => h.1 w (.tail _ (.head _))
  | unregistered hnone =>
    have hpath : ∀ route ∈ postHandlers libs (.ofDao libs), url ≠ route.1 := by
      simpa using List.lookup_eq_none_iff.mp hnone
    refine iff_of_true ⟨trivial, id⟩ ⟨by simp, ?_⟩
    rw [← List.append_nil [_, _, _], asked_prelude]
    exact (serviceable_pushes (by simp)).mpr (serviceable_unregistered hpath)
  | @handled handler tr e _ _ _ _ _ hroute hrun hops =>
    have hpeer : ∀ w, ⟨.remoteEndpoint, .error w⟩ ∉ tr := fun w h => by
      obtain ⟨op, hop⟩ := hops _ h
      cases hop
    have hexit : (e.map fun _ => true).Defined ∧ ¬ (e.map fun _ => true).Threw ↔
        e.Defined ∧ ¬ e.Threw := by
      cases e <;> exact Iff.rfl
    rw [asked_prelude, serviceable_pushes (by simp), hexit, postHandlers_returns_iff hroute hrun]
    simp [hpeer]

-- ---------------------------------------------------------------------------
-- The request
-- ---------------------------------------------------------------------------

theorem respond_ok (found : Bool) (response response' : HttpResponse) {h : HttpTrace} :
    Spec .any h ((if !found then writeNotFound response else writeResponse response') >>=
      fun _ => checkDeadline) fun h' e => ∃ tr r, h' = h ++ tr ∧ e = .ret () ∧ written tr = [r] ∧
        asked tr = [] ∧ ∀ w, ⟨.remoteEndpoint, .error w⟩ ∉ tr := by
  cases found with
  | false =>
    refine .call fun _ => .call fun _ => .call fun _ => ?_
    exact ⟨_, _, (List.append_assoc ..).trans (List.append_assoc ..), rfl, rfl, rfl, by simp⟩
  | true =>
    refine .call fun _ => .call fun _ => ?_
    exact ⟨_, _, List.append_assoc .., rfl, rfl, rfl, by simp⟩

theorem onRead_ok (libs : Libs) (iterate : Params → Params) (request : HttpRequest) :
    Spec .any [] (onRead libs iterate none request) fun tr _ =>
      (AnsweredOnce tr ↔ Answerable libs request tr) := by
  unfold onRead handlereq
  rw [spec_tryCatch]
  cases hm : request.method with
  | other name =>
    simp only [Option.isSome_none, Bool.false_eq_true, reduceCtorEq, if_false]
    refine .call fun _ => iff_of_false ?_ ?_
    · rintro ⟨response, h⟩
      cases h
    · unfold Answerable
      rw [hm]
      exact id
  | get =>
    simp only [Option.isSome_none, Bool.false_eq_true, reduceCtorEq, if_false, if_true,
      bind_pure_unit, bind_assoc]
    apply (handleGet_ok _ _).bind
    rintro h e ⟨tr, found, rfl, rfl, htr⟩
    apply (respond_ok found _ _).mono
    rintro h' e ⟨tr', r, rfl, rfl, hw, -⟩
    exact iff_of_true ⟨r, by simp [htr, hw]⟩ (by simp [Answerable, hm])
  | post =>
    simp only [Option.isSome_none, Bool.false_eq_true, reduceCtorEq, if_false, if_true,
      bind_pure_unit, bind_assoc]
    have hanswerable (tr) : Answerable libs request tr ↔
        (∀ w, ⟨.remoteEndpoint, .error w⟩ ∉ tr) ∧
          Serviceable libs request.body (asked tr) request.target.text := by
      unfold Answerable
      rw [hm]
    apply (handlePost_ok _ _).bind
    intro h e hpost
    have hw := postRun_written hpost
    have hreturns := (postRun_returns hpost).trans (hanswerable _).symm
    have hsilent : ¬ AnsweredOnce h := by
      rintro ⟨response, hresponse⟩
      cases hw.symm.trans hresponse
    cases e with
    | ret found =>
      apply (respond_ok found _ _).mono
      rintro h' e ⟨tr', r, rfl, rfl, hw', hasked, hpeer⟩
      refine iff_of_true ⟨r, by simp [hw, hw']⟩ ((hanswerable _).mpr ?_)
      obtain ⟨hgone, hserviceable⟩ := (hanswerable _).mp (hreturns.mp ⟨trivial, id⟩)
      exact ⟨fun w hmem => (List.mem_append.mp hmem).elim (hgone w) (hpeer w), by
        simpa [hasked] using hserviceable⟩
    | threw w => exact iff_of_false hsilent fun h => (hreturns.mpr h).2 trivial
    | undef u => exact iff_of_false hsilent fun h => (hreturns.mpr h).1

/-- A request that was read without an error gets exactly one response iff it is a GET, or a
POST whose peer is still connected and whose handler returns. -/
theorem requests_answered_once_iff (hr : Runs (onRead libs iterate none request) tr e) :
    AnsweredOnce tr ↔ Answerable libs request tr :=
  (onRead_ok libs iterate request).ends hr

def loginTarget : Bytes := [47, 117, 115, 101, 114, 95, 108, 111, 103, 105, 110]

def loginResponse : HttpResponse := ⟨11, false, .ok, some "text/json", some "GateServer"⟩

def badLoginTrace : HttpTrace :=
  [⟨.op (.push .debug ("Handling POST request for URL: " ++ loginTarget.text)), ()⟩,
    ⟨.remoteEndpoint, .ok "127.0.0.1"⟩, ⟨.op (.push .info ("Request IP:" ++ "127.0.0.1")), ()⟩,
    ⟨.op (.push .error ("Failed to parse JSON request body: " ++ "[")), ()⟩,
    ⟨.op (.write (.ofError .errorJosn)), ()⟩, ⟨.writeResponse loginResponse, ()⟩,
    ⟨.asyncWait, ()⟩]

theorem requests_answered_once_login : AnsweredOnce badLoginTrace := by
  have hrun : Runs (onRead (.ofBodies []) id none ⟨.post, loginTarget, 11, "["⟩) badLoginTrace
      (.ret ()) := by
    refine .call _ (.call _ (.call _ (.call _ (.call _ ?_))))
    exact .call _ (.call _ .refl)
  have hasked : asked badLoginTrace =
      [⟨.push .debug ("Handling POST request for URL: " ++ loginTarget.text), ()⟩,
        ⟨.push .info ("Request IP:" ++ "127.0.0.1"), ()⟩,
        ⟨.push .error ("Failed to parse JSON request body: " ++ "["), ()⟩,
        ⟨.write (.ofError .errorJosn), ()⟩] := rfl
  refine (requests_answered_once_iff hrun).mpr ⟨by simp [badLoginTrace], ?_⟩
  rw [hasked]
  exact {
    legible := legible_of_none rfl (by simp [RedisAnswered])
    provided := by simp
    returns := trivial }

/-- A PUT is not answered, nor is a login whose body is an array. -/
theorem requests_unanswered :
    (∃ tr e, Runs (onRead (.ofBodies []) id none ⟨.other "PUT", [47], 11, ""⟩) tr e ∧
      ¬ AnsweredOnce tr) ∧
    ∃ tr e, Runs (onRead (.ofBodies [("[]", .array [])]) id none
      ⟨.post, loginTarget, 11, "[]"⟩) tr e ∧ ¬ AnsweredOnce tr := by
  constructor
  · refine ⟨[⟨.asyncWait, ()⟩], .ret (), .call _ .refl, ?_⟩
    rintro ⟨response, h⟩
    cases h
  · refine ⟨[⟨.op (.push .debug ("Handling POST request for URL: " ++ loginTarget.text)), ()⟩,
      ⟨.remoteEndpoint, .ok "127.0.0.1"⟩, ⟨.op (.push .info ("Request IP:" ++ "127.0.0.1")), ()⟩],
      .ret (), .call _ (.call _ (.call _ .refl)), ?_⟩
    rintro ⟨response, h⟩
    cases h

end GateServer.HttpConnection
