import GateServer.HttpConnection.Target

/-!
# The response to a GET request

From the target to the text of the response, through the grammar of the query string.
-/

namespace GateServer.HttpConnection

open Interact LogicalSystem

variable {libs : Libs} {iterate : Params → Params} {request : HttpRequest}

@[simp] def text? : HttpEv → Option String
  | ⟨.text piece, _⟩ => some piece
  | _ => none

def texts (tr : HttpTrace) : List String := tr.filterMap text?

@[simp] theorem texts_append (tr tr' : HttpTrace) : texts (tr ++ tr') = texts tr ++ texts tr' :=
  List.filterMap_append

@[simp] theorem texts_cons (ev : HttpEv) (tr : HttpTrace) :
    texts (ev :: tr) = (text? ev).toList ++ texts tr := filterMap_cons_toList ..

@[simp] theorem texts_nil : texts [] = [] := rfl

def paramLine : (Bytes × Bytes) × Nat → String
  | ((key, value), i) =>
    " params" ++ toString i ++ " key:" ++ key.text ++ " value:" ++ value.text ++ "\r\n"

def paramLog : (Bytes × Bytes) × Nat → Ev
  | ((key, value), i) =>
    ⟨.log .debug ("GET parameter " ++ toString i ++ ": " ++ key.text ++ " = " ++ value.text), ()⟩

theorem printParams_lists (i : Nat) (params : Params) {h : HttpTrace} :
    Spec .any h (printParams i params) fun h' e => ∃ tr, h' = h ++ tr ∧ e = .ret () ∧
      written tr = [] ∧ texts tr = (params.zipIdx (i + 1)).map paramLine ∧
      asked tr = (params.zipIdx (i + 1)).map paramLog := by
  induction params generalizing i h with
  | nil => exact ⟨[], by simp, rfl, rfl, rfl, rfl⟩
  | cons p rest ih =>
    refine .call fun _ => .call fun _ => (ih (i + 1)).mono ?_
    rintro h' e ⟨tr, rfl, rfl, hwritten, htexts, hasked⟩
    refine ⟨_, (List.append_assoc ..).trans (List.append_assoc ..), rfl, hwritten, ?_, ?_⟩
    · exact congrArg (paramLine (p, i + 1) :: ·) htexts
    · exact congrArg (paramLog (p, i + 1) :: ·) hasked

theorem handleGet_lists (params : Params) :
    Spec .any [] (handleGet iterate "/get_test" params) fun h' e => e = .ret true ∧
      written h' = [] ∧
      texts h' = "receive get request\r\n" :: ((iterate params).zipIdx 1).map paramLine ∧
      asked h' = ⟨.push .debug "Handling GET request for path: /get_test", ()⟩ ::
        ⟨.log .info "Received GET request on /get_test endpoint", ()⟩ ::
          ((iterate params).zipIdx 1).map paramLog := by
  refine .call fun _ => .call fun _ => .call fun _ => ?_
  apply (printParams_lists 0 (iterate params)).bind
  rintro _ e ⟨tr, rfl, rfl, hwritten, htexts, hasked⟩
  refine ⟨rfl, ?_, ?_, ?_⟩
  · simpa [written] using hwritten
  · simp [htexts]
  · simp only [asked_append, hasked]
    rfl

structure Responds (tr : HttpTrace) (pieces : List String) (logs : Trace)
    (response : HttpResponse) : Prop where
  texts : texts tr = pieces
  logs : asked tr = logs
  written : written tr = [response]

def GetResponse (iterate : Params → Params) (request : HttpRequest) (tr : HttpTrace) : Prop :=
  let url := (grammar request.target).getUrl.text
  let params := (iterate (grammar request.target).getParams).zipIdx 1
  if url = "/get_test" then
    Responds tr ("receive get request\r\n" :: params.map paramLine)
      (⟨.push .debug "Handling GET request for path: /get_test", ()⟩ ::
        ⟨.log .info "Received GET request on /get_test endpoint", ()⟩ :: params.map paramLog)
      { version := request.version, keepAlive := false, server := some "GateServer" }
  else
    Responds tr ["url not found\r\n"]
      [⟨.push .warn ("GET request to unregistered path: " ++ url), ()⟩]
      { version := request.version, keepAlive := false, result := .notFound,
        contentType := some "text/plain" }

theorem onRead_get (hget : request.method = .get) :
    Spec .any [] (onRead libs iterate none request) fun tr e =>
      e = .ret () ∧ GetResponse iterate request tr := by
  unfold onRead handlereq
  rw [spec_tryCatch, preParseGetParams_grammar]
  simp only [Option.isSome_none, Bool.false_eq_true, reduceCtorEq, if_false, if_true, hget,
    bind_pure_unit, bind_assoc]
  by_cases hurl : (grammar request.target).getUrl.text = "/get_test"
  · rw [hurl]
    apply (handleGet_lists _).bind
    rintro h e ⟨rfl, hwritten, htexts, hasked⟩
    refine .call fun _ => .call fun _ => ⟨rfl, ?_⟩
    simp only [GetResponse, hurl, if_true]
    refine ⟨?_, ?_, ?_⟩
    · simp [htexts]
    · rw [asked_append, asked_append, hasked]
      exact (List.append_nil _).trans (List.append_nil _)
    · simp only [written_append, hwritten]
      rfl
  · have hnone : (getHandlers iterate).lookup (grammar request.target).getUrl.text = none :=
      List.lookup_eq_none_iff.mpr (by simpa [getHandlers] using hurl)
    unfold handleGet
    rw [hnone]
    refine .call fun _ => .call fun _ => .call fun _ => .call fun _ => ⟨rfl, ?_⟩
    simp only [GetResponse, hurl, if_false]
    exact ⟨rfl, rfl, rfl⟩

/-- Every GET request gets the response that its target calls for. -/
theorem get_answers (hget : request.method = .get)
    (hr : Runs (onRead libs iterate none request) tr e) :
    e = .ret () ∧ GetResponse iterate request tr :=
  (onRead_get hget).ends hr

def testRequest : HttpRequest :=
  ⟨.get, [47, 103, 101, 116, 95, 116, 101, 115, 116, 63, 107, 61, 118], 11, ""⟩

def testTrace : HttpTrace :=
  [⟨.op (.push .debug "Handling GET request for path: /get_test"), ()⟩,
    ⟨.op (.log .info "Received GET request on /get_test endpoint"), ()⟩,
    ⟨.text "receive get request\r\n", ()⟩, ⟨.text " params1 key:k value:v\r\n", ()⟩,
    ⟨.op (.log .debug "GET parameter 1: k = v"), ()⟩,
    ⟨.writeResponse ⟨11, false, .ok, none, some "GateServer"⟩, ()⟩, ⟨.asyncWait, ()⟩]

theorem get_answers_test : GetResponse id testRequest testTrace := by
  have hrun : Runs (onRead (.ofBodies []) id none testRequest) testTrace (.ret ()) := by
    refine .call _ (.call _ (.call _ (.call _ (.call _ ?_))))
    exact .call _ (.call _ .refl)
  exact (get_answers rfl hrun).2

end GateServer.HttpConnection
