import AccessLog.Proofs.FailedCalls

/-! # Answers in envelopes

A request to a resource by its method is answered with an envelope that tells success or failure,
with a code and a message for a failure, whichever step of the work it was that failed. One answer
does not come in an envelope: that to an upload whose content type names no boundary between parts,
for it is given before the upload is looked at. -/

namespace AccessLog.Json

/-- The value of the member of a name. -/
def member? (v : Json) (name : String) : Option Json := v.members.lookup name

end AccessLog.Json

namespace AccessLog.Http
open AccessLog.Enrich AccessLog.Log AccessLog.Service AccessLog.Stats AccessLog.Store

/-- The codes of failures, each with the status that it goes with. -/
def failureStatuses : List (String × Nat) :=
  [("E1000", 400), ("E1001", 400), ("E2000", 404), ("E500", 500)]

/-- An envelope that tells success under a status in the two hundreds, and under any other a failure
with the code that belongs to the status. -/
def Response.IsEnveloped (response : Response) : Prop :=
  ∃ v, response.body = .json v ∧
    if 200 ≤ response.status ∧ response.status < 300 then
      v.member? "result" = some (.text "SUCCESS") ∧ v.member? "error" = none
    else
      v.member? "result" = some (.text "ERROR") ∧ v.member? "data" = none ∧
        ∃ error code message, v.member? "error" = some error ∧
          error.member? "code" = some (.text code) ∧
          error.member? "message" = some (.text message) ∧
          (code, response.status) ∈ failureStatuses

/-- The method that a resource is there for. -/
def Route.method : Route → String
  | health => "GET"
  | analyze => "POST"
  | analysis _ => "GET"

/-- The boundary that the content type of a request names. -/
def Request.boundary? (r : Request) : Option String :=
  (r.header? "content-type").bind MediaType.formBoundary?

/-! ## Envelopes -/

theorem isEnveloped_empty (headers : List (String × String)) :
    (Response.json 200 headers Envelope.empty.toJson).IsEnveloped :=
  ⟨_, rfl, rfl, rfl⟩

theorem isEnveloped_success {status : Nat} (h : 200 ≤ status ∧ status < 300)
    (headers : List (String × String)) (data : Json) :
    (Response.json status headers (Envelope.success data).toJson).IsEnveloped :=
  ⟨_, rfl, (if_pos h).symm ▸ ⟨rfl, rfl⟩⟩

theorem mem_failureStatuses (f : Failure) : (f.code, f.status) ∈ failureStatuses := by
  cases f <;> simp [Failure.code, Failure.status, failureStatuses]

theorem isEnveloped_ofFailure (f : Failure) : (ofFailure f).IsEnveloped := by
  have hstatus : ¬(200 ≤ (ofFailure f).status ∧ (ofFailure f).status < 300) := by
    cases f <;> simp [ofFailure, Response.json, Failure.status]
  refine ⟨_, rfl, ?_⟩
  rw [if_neg hstatus]
  exact ⟨rfl, rfl, _, _, _, rfl, rfl, rfl, mem_failureStatuses f⟩

theorem not_isEnveloped_text (status : Nat) (s : String) :
    ¬(Response.text status s).IsEnveloped := by
  rintro ⟨v, hbody, -⟩
  cases hbody

theorem isEnveloped_ofIngest (taken : Except Failure Analysis) : (ofIngest taken).IsEnveloped := by
  unfold ofIngest
  split
  · exact isEnveloped_ofFailure _
  · split
    · exact isEnveloped_success (by decide) _ _
    · exact isEnveloped_ofFailure _

theorem isEnveloped_ofResult (found : Except Failure AnalysisResult) :
    (ofResult found).IsEnveloped := by
  unfold ofResult
  split
  · exact isEnveloped_ofFailure _
  · exact isEnveloped_success (by decide) _ _

theorem isEnveloped_finish {r : Request} (h : r.method ≠ "HEAD") (response : Response) :
    (finish r response).IsEnveloped ↔ response.IsEnveloped := by
  have hbody : (finish r response).body = response.body := by
    simp [finish, h, Response.withHeaders]
  rw [Response.IsEnveloped, hbody, status_finish, Response.IsEnveloped]

/-! ## Actions -/

/-- Whatever comes of an action, it is answered with an envelope. -/
def Action.IsEnveloped : Action → Prop
  | respond response => response.IsEnveloped
  | takeIn _ | lookUp _ _ => True

theorem isEnveloped_invalid (detail : String) : (invalid detail).IsEnveloped :=
  isEnveloped_ofFailure _

theorem isEnveloped_analysisAction (segment : String) (r : Request) :
    (analysisAction segment r).IsEnveloped := by
  unfold analysisAction
  split
  · exact isEnveloped_invalid _
  · exact isEnveloped_invalid _
  · split
    · exact isEnveloped_invalid _
    · trivial

theorem isEnveloped_upload_iff (limit : UInt64) (r : Request) :
    (upload limit r).IsEnveloped ↔ r.boundary? ≠ none := by
  unfold upload
  split
  · rename_i hboundary
    exact iff_of_false (not_isEnveloped_text _ _) fun h => h hboundary
  · rename_i boundary hboundary
    have hsome : r.boundary? ≠ none := Option.ne_none_iff_exists'.2 ⟨boundary, hboundary⟩
    refine iff_of_true ?_ hsome
    split
    · trivial
    · exact isEnveloped_invalid _
    · exact isEnveloped_invalid _
    · exact isEnveloped_ofFailure _

theorem isEnveloped_action_iff (limit : UInt64) (r : Request) (route : Route) :
    (route.action limit r).IsEnveloped ↔ (route = .analyze → r.boundary? ≠ none) := by
  cases route with
  | health => exact iff_of_true (isEnveloped_empty _) (fun h => nomatch h)
  | analyze => exact (isEnveloped_upload_iff limit r).trans ⟨fun h _ => h, fun h => h rfl⟩
  | analysis id => exact iff_of_true (isEnveloped_analysisAction id r) (fun h => nomatch h)

/-- A request to a resource by its method is answered with an envelope, whatever the state of the
service and whatever its work comes to, if and only if it is no upload without a boundary. -/
theorem enveloped_iff {σ : Type} (takeIn : List Read → Except Failure Analysis × σ)
    (lookUp : UInt64 → UInt64 → Except Failure AnalysisResult × σ) (state : σ) (limit : UInt64)
    {r : Request} {route : Route} (hroute : Route.ofPath? r.path = some route)
    (hmethod : r.method = route.method) :
    (answer takeIn lookUp state limit r).1.IsEnveloped ↔
      (route = .analyze → r.boundary? ≠ none) := by
  have hdispatched : r.action limit = route.action limit r := by
    have hmem : route.methods.contains r.method = true := by
      rw [hmethod]
      cases route <;> rfl
    rw [Request.action, hroute]
    exact if_pos hmem
  have hoptions : ¬ (r.method == "OPTIONS") = true := by
    rw [hmethod]
    cases route <;> simp [Route.method]
  have hhead : r.method ≠ "HEAD" := by
    rw [hmethod]
    cases route <;> simp [Route.method]
  rw [← isEnveloped_action_iff limit, ← hdispatched, answer, if_neg hoptions]
  cases r.action limit with
  | respond response => exact isEnveloped_finish hhead response
  | takeIn batch =>
    exact iff_of_true ((isEnveloped_finish hhead _).2 (isEnveloped_ofIngest _)) trivial
  | lookUp id topN =>
    exact iff_of_true ((isEnveloped_finish hhead _).2 (isEnveloped_ofResult _)) trivial

/-- An upload that breaks off behind its first boundary is refused in an envelope. -/
theorem enveloped_iff_brokenUpload :
    Route.ofPath? brokenUpload.path = some .analyze ∧ brokenUpload.method = Route.analyze.method ∧
    brokenUpload.boundary? = some "b" ∧
    (handle fullDisk 7 1000 brokenUpload).1.status = 400 ∧
    (handle fullDisk 7 1000 brokenUpload).1.IsEnveloped := by
  have hroute : Route.ofPath? brokenUpload.path = some .analyze := by decide +kernel
  have hmethod : brokenUpload.method = Route.analyze.method := by rfl
  have hboundary : brokenUpload.boundary? = some "b" := by decide +kernel
  have hstatus : (handle fullDisk 7 1000 brokenUpload).1.status = 400 := by decide +kernel
  refine ⟨hroute, hmethod, hboundary, hstatus, ?_⟩
  refine (enveloped_iff _ _ _ _ hroute hmethod).2 ?_
  rw [hboundary]
  simp

/-- An upload without a content type. -/
def untypedUpload : Request := .ofTarget "POST" "/api/logs/analyze" [] []

/-- It is refused in plain words. -/
theorem not_enveloped_untypedUpload :
    Route.ofPath? untypedUpload.path = some .analyze ∧
    untypedUpload.method = Route.analyze.method ∧
    (handle fullDisk 7 1000 untypedUpload).1.status = 400 ∧
    (handle fullDisk 7 1000 untypedUpload).1.body =
      .text "Invalid `boundary` for `multipart/form-data` request" ∧
    ¬(handle fullDisk 7 1000 untypedUpload).1.IsEnveloped := by
  have hbody : (handle fullDisk 7 1000 untypedUpload).1.body =
      .text "Invalid `boundary` for `multipart/form-data` request" := by
    rfl
  refine ⟨by decide +kernel, by rfl, by decide +kernel, hbody, ?_⟩
  rintro ⟨v, hv, -⟩
  rw [hbody] at hv
  cases hv

end AccessLog.Http
